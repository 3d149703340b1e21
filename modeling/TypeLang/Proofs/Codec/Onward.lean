import TypeLang.Proofs.Codec.Width

namespace TypeLang

structure Cursor.Reaches (c d : Cursor) : Prop where
  bytes : d.bytes = c.bytes
  forwards : c.pos ≤ d.pos
  inside : c.pos ≤ c.bytes.size → d.pos ≤ c.bytes.size

namespace Cursor.Reaches

theorem stay {c d : Cursor} (bytes : d.bytes = c.bytes) (pos : d.pos = c.pos) : c.Reaches d :=
  ⟨bytes, Nat.le_of_eq pos.symm, fun h => pos ▸ h⟩

theorem refl (c : Cursor) : c.Reaches c := stay rfl rfl

theorem trans {c d e : Cursor} (h : c.Reaches d) (h' : d.Reaches e) : c.Reaches e where
  bytes := h'.bytes.trans h.bytes
  forwards := Nat.le_trans h.forwards h'.forwards
  inside hc := by
    have := h'.inside (h.bytes ▸ h.inside hc)
    rwa [h.bytes] at this

end Cursor.Reaches

namespace Read

variable {α β : Type}

structure Onward (r : Read α) : Prop where
  ok {c d : Cursor} {a : α} : r c = .ok a d → c.Reaches d
  error {c d : Cursor} {e : ReadFault} : r c = .error e d → c.Reaches d

/-- The read moves onwards if it succeeds, and stays where it is if it fails without a crash. -/
structure AllOrNothing (r : Read α) : Prop where
  ok {c d : Cursor} {a : α} : r c = .ok a d → c.Reaches d
  error {c d : Cursor} {e : ReadFault} : r c = .error e d → ¬ e.IsCrash →
    d.bytes = c.bytes ∧ d.pos = c.pos

theorem onward_pure (a : α) : Onward (pure a) where
  ok h := by
    cases h
    exact .refl _
  error h := by cases h

theorem onward_throw (e : ReadFault) : Onward (throw e : Read α) where
  ok h := by cases h
  error h := by
    cases h
    exact .refl _

theorem Onward.bind {r : Read α} {f : α → Read β} (h : Onward r) (h' : ∀ a, Onward (f a)) :
    Onward (r >>= f) where
  ok hr := by
    obtain ⟨a, m, hm, hf⟩ := bind_eq_ok.mp hr
    exact (h.ok hm).trans ((h' a).ok hf)
  error {c d e} hr := by
    cases hm : r c with
    | ok a m =>
      rw [bind_of_ok hm] at hr
      exact (h.ok hm).trans ((h' a).error hr)
    | error e' m =>
      rw [bind_of_error hm] at hr
      cases hr
      exact h.error hm

theorem onward_byte : Onward byte where
  ok {c d a} h := by
    rw [byte] at h
    split at h
    · next hc =>
      cases h
      exact ⟨rfl, Nat.le_succ _, fun _ => hc⟩
    · cases h
  error {c d e} h := by
    rw [byte] at h
    split at h
    · cases h
    · cases h
      exact .refl _

theorem onward_take (n : Nat) : Onward (take n) where
  ok {c d a} h := by
    rw [take] at h
    split at h
    · next hn =>
      cases h
      refine ⟨rfl, Nat.le_add_right _ _, fun hc => ?_⟩
      rw [Cursor.remaining] at hn
      dsimp only
      omega
    · cases h
  error {c d e} h := by
    rw [take] at h
    split at h
    · cases h
    · cases h
      exact .refl _

theorem onward_within (packed plain : ByteArray) (r : Read α) : Onward (within packed plain r) where
  ok {c d a} h := by
    rw [within] at h
    split at h
    · cases h
      exact .stay rfl rfl
    · cases h
  error {c d e} h := by
    rw [within] at h
    split at h
    · cases h
    · cases h
      exact .stay rfl rfl

theorem allOrNothing_throw (e : ReadFault) : AllOrNothing (throw e : Read α) where
  ok h := by cases h
  error h _ := by
    cases h
    exact ⟨rfl, rfl⟩

theorem Onward.rewinding {r : Read α} (h : Onward r) : AllOrNothing (rewinding r) where
  ok hr := h.ok (rewinding_eq_ok hr)
  error {c d e} hr _ := by
    rw [Read.rewinding] at hr
    split at hr
    · cases hr
    · next he =>
      cases hr
      exact ⟨(h.error he).bytes, rfl⟩

end Read

namespace Codec

open Read

theorem onward_readCounted (c : Codec) (width : Nat) {r : Read Value} (h : Onward r) (count : Nat) :
    Onward (c.readCounted width r count) := by
  have items := (readItems_of_parts (P := Onward) onward_pure .bind h count []).bind fun items =>
    onward_pure (Value.vector items)
  constructor
  · intro d d' v hr
    rw [readCounted] at hr
    split at hr
    · cases hr
    · exact items.ok hr
  · intro d d' e hr
    rw [readCounted] at hr
    split at hr
    · cases hr
      exact .refl _
    · exact items.error hr

theorem readLaw_onward (c : Codec) : ReadLaw c Onward where
  pure a := onward_pure a
  throw e _ := onward_throw e
  bind hr hf := hr.bind hf
  byte := onward_byte
  take n := onward_take n
  within packed plain r _ := onward_within packed plain r
  countedAny count hr := onward_readCounted c 4 hr count
  countedAs elem count hr := onward_readCounted c (elem.width c.widths) hr count

theorem allOrNothing_decode (c : Codec) :
    AllOrNothing c.decodeAny ∧ (∀ key, AllOrNothing (c.decodeAs key)) ∧
      (∀ key, AllOrNothing (c.decodeBare key)) ∧
      ∀ method, AllOrNothing (c.decodeResult method) :=
  (readLaw_onward c).decoders Onward.rewinding fun _ => allOrNothing_throw _

end Codec

end TypeLang
