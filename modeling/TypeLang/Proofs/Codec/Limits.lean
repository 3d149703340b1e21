import TypeLang.Proofs.Codec.Compiled
import TypeLang.Proofs.Codec.Levels

namespace TypeLang.Codec

open Read

theorem countFault?_mono {c c' : Codec}
    (items : c.config.maxZeroWidthItems ≤ c'.config.maxZeroWidthItems)
    {width count remaining : Nat} (h : c.countFault? width count remaining = none) :
    c'.countFault? width count remaining = none := by
  rw [countFault?] at h ⊢
  split
  · next hw =>
    rw [if_pos hw] at h
    split at h
    · cases h
    · next hn => rw [if_neg (by omega)]
  · next hw =>
    rw [if_neg hw] at h
    exact h

theorem countFault?_eq_some (c' : Codec) {c : Codec} {width count remaining : Nat} {e : ReadFault}
    (h : c.countFault? width count remaining = some e) (he : ¬ e.IsRefusal) :
    c'.countFault? width count remaining = some e := by
  rw [countFault?] at h ⊢
  split
  · next hw =>
    rw [if_pos hw] at h
    split at h
    · cases h
      exact absurd trivial he
    · cases h
  · next hw =>
    rw [if_neg hw] at h
    exact h

section

variable {s : Schema} {config config' : Config} {unpack : ByteArray → Option ByteArray}
  {c c' : Codec}

theorem laxer_of_ofSchema (hc : ofSchema s config unpack = .ok c)
    (hc' : ofSchema s config' unpack = .ok c')
    (inflateGzip : config'.inflateGzip = config.inflateGzip)
    (checkUnions : config'.checkUnions = true → config.checkUnions = true) : c.Laxer c' := by
  rw [ofSchema] at hc hc'
  obtain ⟨plans, hp, hc⟩ := except_bind_eq_ok.mp hc
  obtain ⟨plans', hp', hc'⟩ := except_bind_eq_ok.mp hc'
  cases hp.symm.trans hp'
  cases hc
  cases hc'
  exact ⟨rfl, rfl, rfl, inflateGzip, checkUnions⟩

/-- Of two codecs of one schema, the one that asks for less returns whatever the other one
returns, and takes the same bytes; and where the other one fails, it fails with the same fault,
unless that is the fault of a limit or of a constructor that was not expected. -/
theorem decode_laxer (hc : ofSchema s config unpack = .ok c)
    (hc' : ofSchema s config' unpack = .ok c')
    (inflateGzip : config'.inflateGzip = config.inflateGzip)
    (maxDepth : config.maxDepth ≤ config'.maxDepth)
    (maxZeroWidthItems : config.maxZeroWidthItems ≤ config'.maxZeroWidthItems)
    (checkUnions : config'.checkUnions = true → config.checkUnions = true) :
    Refines ReadFault.IsRefusal c.decodeAny c'.decodeAny ∧
      (∀ key, Refines ReadFault.IsRefusal (c.decodeAs key) (c'.decodeAs key)) ∧
      (∀ key, Refines ReadFault.IsRefusal (c.decodeBare key) (c'.decodeBare key)) ∧
      ∀ method, Refines ReadFault.IsRefusal (c.decodeResult method) (c'.decodeResult method) := by
  have lax := laxer_of_ofSchema hc hc' inflateGzip checkUnions
  rw [← (ofSchema_eq_ok hc).config, ← (ofSchema_eq_ok hc').config] at maxDepth maxZeroWidthItems
  have readers : (c.guardedReaders c.countFault? c.config.maxDepth).Refines ReadFault.IsRefusal
      (c'.guardedReaders c'.countFault? c'.config.maxDepth) := by
    refine lax.refines_guardedReaders (fun _ he => he) (fun m m' h => ?_) maxDepth
    have counted : ∀ {r r' : Read Value}, Refines ReadFault.IsRefusal r r' → ∀ width count,
        Refines ReadFault.IsRefusal (CountGuard.counted c.countFault? width r count)
          (CountGuard.counted c'.countFault? width r' count) := fun hr _ _ =>
      refines_counted hr (fun _ => countFault?_mono maxZeroWidthItems)
        fun _ _ => countFault?_eq_some c'
    exact ⟨counted h.any 4, fun elem => counted (h.as elem) _⟩
  rw [guardedReaders_countFault?, guardedReaders_countFault?] at readers
  simp only [← decodeAny_readers, ← decodeAs_readers, ← decodeBare_readers,
    ← decodeResult_readers]
  exact lax.refines_decode readers

end

def shallowCodec : Codec := { pointCodec with config := { maxDepth := 2 } }

def bareBytes : ByteArray :=
  ⟨#[1, 0, 0, 0, 2, 0, 0, 0, 0x15, 0xc4, 0xb5, 0x1c, 0, 0, 0, 0]⟩

def shortBytes : ByteArray := ⟨#[1, 0, 0, 0, 2, 0, 0, 0, 0x15, 0xc4, 0xb5, 0x1c]⟩

theorem decode_laxer_point : ∃ v d,
    shallowCodec.decodeAny (.ofBytes bareBytes) = .ok v d ∧
      pointCodec.decodeAny (.ofBytes bareBytes) = .ok v d ∧
      pointCodec.decodeAny (.ofBytes shortBytes) = .error (.truncated 4 0) (.ofBytes shortBytes) := by
  have laxer := decode_laxer (s := pointSchema) (c := shallowCodec) rfl ofSchema_point rfl
    (by decide) (by decide) id
  have whole : shallowCodec.decodeAny (.ofBytes bareBytes) =
    .ok (.object "point" [("seen", .bool true), ("tags", .vector [])]) ⟨bareBytes, 16, []⟩ := by rfl
  have short : shallowCodec.decodeAny (.ofBytes shortBytes) =
    .error (.truncated 4 0) (.ofBytes shortBytes) := by rfl
  exact ⟨_, _, whole, laxer.1.ok whole, laxer.1.error short id⟩

end TypeLang.Codec
