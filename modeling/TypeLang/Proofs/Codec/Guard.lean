import TypeLang.Proofs.Codec.Levels
import TypeLang.Proofs.Codec.Width

/-!
Before the items of a vector are read, their count is compared with the bytes that are left. This
refuses nothing that could be read: each item takes at least the bytes that the comparison asks for.
-/

namespace TypeLang.Codec

open Read

def limitFault? (c : Codec) : CountGuard := fun width count _ =>
  if width = 0 ∧ c.config.maxZeroWidthItems < count then
    some (.tooManyItems count c.config.maxZeroWidthItems)
  else none

/-- The readers that try to read as many items as a count says, whatever bytes are left. -/
def unguardedReaders (c : Codec) (n : Nat) : Readers := c.guardedReaders c.limitFault? n

theorem limitFault?_eq_none {c : Codec} {width count remaining : Nat}
    (h : c.countFault? width count remaining = none) :
    c.limitFault? width count remaining = none := by
  rw [countFault?] at h
  rw [limitFault?]
  split
  · next hl =>
    rw [if_pos hl.1, if_pos hl.2] at h
    cases h
  · rfl

theorem countFault?_eq_none_of_le {c : Codec} {width count remaining : Nat}
    (h : c.limitFault? width count remaining = none) (hle : count * width ≤ remaining) :
    c.countFault? width count remaining = none := by
  rw [limitFault?] at h
  rw [countFault?]
  split at h
  · cases h
  · next hl =>
    split
    · next hw => rw [if_neg fun hn => hl ⟨hw, hn⟩]
    · next hw =>
      have := (Nat.le_div_iff_mul_le (Nat.pos_of_ne_zero hw)).mpr hle
      rw [if_neg (Nat.not_lt.mpr this)]

theorem refines_counted_limitFault? {c : Codec} {r r' : Read Value} {width : Nat}
    (h : Refines (fun _ => True) r r') (hw : AtLeast width r') (count : Nat) :
    Refines (fun _ => True) (c.limitFault?.counted width r count)
      (CountGuard.counted c.countFault? width r' count) := by
  refine ⟨fun {d d' v} hr => ?_, fun _ he => absurd trivial he⟩
  rw [CountGuard.counted] at hr ⊢
  cases hg : c.limitFault? width count d.remaining with
  | some fault =>
    rw [hg] at hr
    cases hr
  | none =>
    rw [hg] at hr
    obtain ⟨items, m, hi, hr⟩ := bind_eq_ok.mp hr
    cases hr
    have hi := (refines_readItems h count []).ok hi
    have taken := atLeast_readItems hw count [] hi
    rw [d.length_left] at taken
    rw [countFault?_eq_none_of_le hg (by omega)]
    exact bind_of_ok hi _

theorem refines_unguarded {c : Codec} (n : Nat) :
    (c.readers n).Refines (fun _ => True) (c.unguardedReaders n) := by
  rw [← guardedReaders_countFault?]
  refine c.laxer_refl.refines_guardedReaders (fun _ _ => trivial) (fun m m' h => ?_) (Nat.le_refl n)
  have counted : ∀ {r r' : Read Value}, Refines (fun _ => True) r r' → ∀ width count,
      Refines (fun _ => True) (CountGuard.counted c.countFault? width r count)
        (c.limitFault?.counted width r' count) := fun hr _ _ =>
    refines_counted hr (fun _ => limitFault?_eq_none) fun _ _ _ he => absurd trivial he
  exact ⟨counted h.any 4, fun elem => counted (h.as elem) _⟩

theorem unguarded_refines {c : Codec} (bounded : c.Bounded c.widths) (n : Nat) :
    (c.unguardedReaders n).Refines (fun _ => True) (c.readers n) := by
  rw [← guardedReaders_countFault?]
  refine c.laxer_refl.refines_guardedReaders (fun _ _ => trivial) (fun m m' h => ?_) (Nat.le_refl n)
  rw [guardedReaders_countFault?] at h ⊢
  exact ⟨refines_counted_limitFault? h.any (atLeast_readAny c m'), fun elem =>
    refines_counted_limitFault? (h.as elem) (bounded.readAs m' elem)⟩

section

variable {s : Schema} {config : Config} {unpack : ByteArray → Option ByteArray} {c : Codec}

/-- A body and a value of a layout take at least the bytes that their widths say. So the readers
of the codec, which are those with its own guard, succeed on the same bytes, with the same value
and up to the same place, as the readers that do not compare counts with the bytes that are left,
and so does every way to decode. -/
theorem decode_unguarded (hc : ofSchema s config unpack = .ok c) :
    (∀ p ∈ c.plans, ∀ n, AtLeast (c.widths.body p.id) (readBody (c.readAs n) p)) ∧
      (∀ n layout, AtLeast (layout.width c.widths) (c.readAs n layout)) ∧
      (∀ n, c.guardedReaders c.countFault? n = c.readers n) ∧
      (∀ n, SameSuccess (c.readAny n) (c.unguardedReaders n).any ∧
        ∀ layout, SameSuccess (c.readAs n layout) ((c.unguardedReaders n).as layout)) ∧
      SameSuccess c.decodeAny (c.unguardedReaders config.maxDepth).decodeAny ∧
      (∀ key, SameSuccess (c.decodeAs key)
        ((c.unguardedReaders config.maxDepth).decodeAs c key)) ∧
      (∀ key, SameSuccess (c.decodeBare key)
        ((c.unguardedReaders config.maxDepth).decodeBare c key)) ∧
      ∀ method, SameSuccess (c.decodeResult method)
        ((c.unguardedReaders config.maxDepth).decodeResult c method) := by
  have bounded := bounded_widths hc
  have there := fun n => c.refines_unguarded (n := n)
  have back := unguarded_refines bounded
  obtain ⟨any, as, bare, result⟩ := c.laxer_refl.refines_decode (there c.config.maxDepth)
  obtain ⟨any', as', bare', result'⟩ := c.laxer_refl.refines_decode (back c.config.maxDepth)
  rw [← (ofSchema_eq_ok hc).config]
  simp only [← decodeAny_readers, ← decodeAs_readers, ← decodeBare_readers,
    ← decodeResult_readers]
  exact ⟨bounded, bounded.readAs, c.guardedReaders_countFault?,
    fun n => ⟨sameSuccess_of_refines (there n).any (back n).any,
      fun layout => sameSuccess_of_refines ((there n).as layout) ((back n).as layout)⟩,
    sameSuccess_of_refines any any',
    fun key => sameSuccess_of_refines (as key) (as' key),
    fun key => sameSuccess_of_refines (bare key) (bare' key),
    fun method => sameSuccess_of_refines (result method) (result' method)⟩

end

/-- `ring#2 value:int next:%Ring = Ring`, whose body contains itself -/
def ring : Entry where
  kind := .constructor
  name := "ring"
  id := 2
  type := .named "Ring" false
  generics := []
  arguments := [⟨"value", .int, none⟩, ⟨"next", .named "Ring" true, none⟩]
  comment := none

/-- `rings#3 list:vector<%Ring> = Rings` -/
def rings : Entry where
  kind := .constructor
  name := "rings"
  id := 3
  type := .named "Rings" false
  generics := []
  arguments := [⟨"list", .vector (.named "Ring" true) false, none⟩]
  comment := none

theorem decode_unguarded_ring : ∃ s c,
    Schema.ofEntries [ring, rings] [] = .ok s ∧ ofSchema s {} = .ok c ∧
      c.widths = [(2, 12), (3, 4)] ∧
      (∀ n, AtLeast 12 (c.readAs n (.bare 2))) ∧
      SameSuccess c.decodeAny (c.unguardedReaders 128).decodeAny := by
  have hs := Schema.ofEntries_of [ring, rings] [] rfl
  have hc : ofSchema (.of [ring, rings] [] rfl) {} = .ok _ := rfl
  obtain ⟨-, width, -, -, same, -⟩ := decode_unguarded hc
  exact ⟨_, _, hs, hc, rfl, fun n => width n (.bare 2), same⟩

end TypeLang.Codec
