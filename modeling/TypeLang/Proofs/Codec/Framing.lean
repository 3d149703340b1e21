import TypeLang.Proofs.Codec.Compiled
import TypeLang.Proofs.Codec.Width

namespace TypeLang

open Read

namespace Codec

theorem Framed.within {r : Read Value} (h : Framed r) (packed plain : ByteArray) :
    Framed (Read.within packed plain r) := by
  intro c c' v hr
  obtain ⟨inner, hi, rfl⟩ := within_eq_ok hr
  obtain ⟨b, t, sizes, hc, ht, -⟩ := h hi
  refine ⟨[], c.left, (packed.size, plain.size) :: sizes, rfl, ?_, starves_nil _⟩
  intro d t' _
  have hd : (⟨plain, 0, d.unpacked ++ [(packed.size, plain.size)]⟩ : Cursor).left = b ++ t := hc
  simp only [Read.within, ht _ t hd, Cursor.move, List.append_assoc, List.cons_append,
    List.nil_append, List.length_nil, Nat.add_zero]

theorem countFault?_eq_none {c : Codec} {width count m n : Nat}
    (h : c.countFault? width count m = none) (hn : count * width ≤ n) :
    c.countFault? width count n = none := by
  rw [countFault?] at h ⊢
  split
  · next hw =>
    rw [if_pos hw] at h
    exact h
  · next hw =>
    have := (Nat.le_div_iff_mul_le (Nat.pos_of_ne_zero hw)).mpr hn
    rw [if_neg (Nat.not_lt.mpr this)]

theorem countFault?_of_eq_none {c : Codec} {width count m : Nat}
    (h : c.countFault? width count m = none) (n : Nat) :
    c.countFault? width count n = none ∨
      ∃ needed, c.countFault? width count n = some (.truncated needed n) := by
  rw [countFault?] at h ⊢
  split
  · next hw =>
    rw [if_pos hw] at h
    exact .inl h
  · split
    · exact .inr ⟨_, rfl⟩
    · exact .inl rfl

theorem framed_readCounted (c : Codec) {width : Nat} {r : Read Value} (h : Framed r)
    (hw : AtLeast width r) (count : Nat) : Framed (c.readCounted width r count) := by
  intro d d' v hr
  obtain ⟨hf, items, hi, rfl⟩ := readCounted_eq_ok hr
  obtain ⟨b, t, sizes, hd, ht, hs⟩ :=
    readItems_of_parts (P := Framed) framed_pure .bind h count [] hi
  -- the items take what the guard asks for, so it passes wherever they are all there
  have hb : count * width ≤ b.length := ht.le_length (atLeast_readItems hw count [])
  refine ⟨b, t, sizes, hd, ?_, ?_⟩
  · intro e t' he
    have hn : c.countFault? width count e.remaining = none := by
      apply countFault?_eq_none hf
      rw [← e.length_left, he, List.length_append]
      omega
    rw [readCounted]
    rw [hn]
    dsimp only
    rw [bind_of_ok (ht e t' he)]
    rfl
  · intro e t' ht' he
    rw [readCounted]
    rcases countFault?_of_eq_none hf e.remaining with hn | ⟨needed, hn⟩
    · rw [hn]
      obtain ⟨needed, remaining, e', hr⟩ := hs e t' ht' he
      exact ⟨needed, remaining, e', bind_of_error hr _⟩
    · rw [hn]
      exact ⟨needed, e.remaining, e, rfl⟩

theorem readLaw_framed {c : Codec} (h : c.Bounded c.widths) : ReadLaw c Framed where
  pure a := framed_pure a
  throw e _ := framed_throw e
  bind hr hf := hr.bind hf
  byte := framed_byte
  take n := framed_take n
  within packed plain _ hr := Framed.within hr packed plain
  countedAny {n} count hr := framed_readCounted c hr (atLeast_readAny c n) count
  countedAs {n} elem count hr := framed_readCounted c hr (h.readAs n elem) count

theorem framed_rewinding {α : Type} {r : Read α} (h : Framed r) : Framed (rewinding r) := by
  intro c c' a hr
  obtain ⟨b, t, sizes, hc, ht, hs⟩ := h (rewinding_eq_ok hr)
  refine ⟨b, t, sizes, hc, ?_, ?_⟩
  · intro d t' hd
    rw [rewinding, ht d t' hd]
  · intro d t' ht' hd
    obtain ⟨needed, remaining, d', he⟩ := hs d t' ht' hd
    exact ⟨needed, remaining, { d' with pos := d.pos }, by rw [rewinding, he]⟩

section

variable {s : Schema} {config : Config} {unpack : ByteArray → Option ByteArray} {c : Codec}

/-- Every way to decode takes exactly the bytes of what it returns: on these bytes and any others
behind them it returns the same, and on a strict prefix of them it is truncated. -/
theorem decode_framed (hc : ofSchema s config unpack = .ok c) :
    Framed c.decodeAny ∧ (∀ key, Framed (c.decodeAs key)) ∧ (∀ key, Framed (c.decodeBare key)) ∧
      ∀ method, Framed (c.decodeResult method) :=
  (readLaw_framed (bounded_widths hc)).decoders framed_rewinding fun _ => framed_throw _

end

theorem decode_framed_point :
    Framed pointCodec.decodeAny ∧ (∀ key, Framed (pointCodec.decodeAs key)) ∧
      (∀ key, Framed (pointCodec.decodeBare key)) ∧
      ∀ method, Framed (pointCodec.decodeResult method) :=
  decode_framed ofSchema_point

end Codec

end TypeLang
