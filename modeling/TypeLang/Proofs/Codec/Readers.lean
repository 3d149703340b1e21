import TypeLang.Codec.Decode
import TypeLang.Proofs.Codec.Compiled
import TypeLang.Proofs.Read.Primitive

/-!
The readers of a codec are made of few parts. What holds of the built-in reads and is kept by these
parts holds of all readers, at every number of levels.
-/

namespace TypeLang

namespace Codec

open Read

/-- Whether the readers can fail with a fault. They do not ask for an entry, and they crash just
where a plan strays. -/
def Raises (c : Codec) : ReadFault → Prop
  | .unknownEntry _ => False
  | .crash slot length => ∃ p ∈ c.plans, p.Strays slot length
  | _ => True

theorem planToRead_bind {α : Type} {P : Read α → Prop} (c : Codec) (key : Key)
    {f : Plan → Read α} (unknown : ∀ key, P (throw (.unknownEntry key)))
    (found : ∀ p ∈ c.plans, P (f p)) : P (c.planToRead key >>= f) := by
  rw [planToRead]
  cases hp : c.plan? key with
  | none => exact unknown _
  | some p => exact found p (mem_of_plan? hp)

def countFault? (c : Codec) (width count remaining : Nat) : Option ReadFault :=
  if width = 0 then
    if c.config.maxZeroWidthItems < count then
      some (.tooManyItems count c.config.maxZeroWidthItems)
    else none
  else if remaining / width < count then some (.truncated (saturate (count * width)) remaining)
  else none

def readCounted (c : Codec) (width : Nat) (read : Read Value) (count : Nat) : Read Value :=
  fun cursor =>
    match c.countFault? width count cursor.remaining with
    | some fault => .error fault cursor
    | none => (readItems read count [] >>= fun items => pure (Value.vector items)) cursor

theorem readVector_eq (c : Codec) (width : Nat) (read : Read Value) :
    c.readVector width read = word32 >>= fun count => c.readCounted width read count.toNat := by
  rw [readVector]
  congr 1
  funext count cursor
  rw [bind_of_ok (show (get : Read Cursor) cursor = .ok cursor cursor from rfl)]
  rw [readCounted, countFault?]
  dsimp only
  split
  · split
    · rfl
    · rfl
  · split
    · rfl
    · rfl

theorem readAs_vector (c : Codec) (n : Nat) (elem : Layout) :
    c.readAs (n + 1) (.vector elem false) = c.readVector (elem.width c.widths) (c.readAs n elem) :=
  rfl

theorem readAs_boxedVector (c : Codec) (n : Nat) (elem : Layout) :
    c.readAs (n + 1) (.vector elem true) = word32 >>= fun id =>
      if id = Id.vector then c.readVector (elem.width c.widths) (c.readAs n elem)
      else if c.isPacked id then c.readPackedAs n (.vector elem true)
      else throw (.unexpectedConstructor "Vector" id) := rfl

def readBehind (c : Codec) (n : Nat) (id : UInt32) : Read Value :=
  if id = Id.vector then c.readVector 4 (c.readAny n)
  else if id = Id.boolTrue then pure (.bool true)
  else if id = Id.boolFalse then pure (.bool false)
  else if c.isPacked id then c.readPackedAny n
  else match c.plan? (.id id) with
    | none => throw (.unknownConstructor id)
    | some p => do return (← readBody (c.readAs n) p).toValue

theorem readAny_succ (c : Codec) (n : Nat) :
    c.readAny (n + 1) = word32 >>= c.readBehind n := rfl

theorem readBehind_eq {c : Codec} {n : Nat} {id : UInt32} (hv : id ≠ Id.vector)
    (ht : id ≠ Id.boolTrue) (hf : id ≠ Id.boolFalse) (hp : c.isPacked id = false) :
    c.readBehind n id = match c.plan? (.id id) with
      | none => throw (.unknownConstructor id)
      | some p => do return (← readBody (c.readAs n) p).toValue := by
  rw [readBehind, if_neg hv, if_neg ht, if_neg hf, hp]
  rfl

theorem readItems_of_parts {P : ∀ {α : Type}, Read α → Prop}
    (pure : ∀ {α : Type} (a : α), P (pure a : Read α))
    (bind : ∀ {α β : Type} {r : Read α} {f : α → Read β}, P r → (∀ a, P (f a)) → P (r >>= f))
    {read : Read Value} (h : P read) (count : Nat) (items : List Value) :
    P (readItems read count items) := by
  induction count generalizing items with
  | zero =>
    rw [readItems]
    exact pure _
  | succ n ih =>
    rw [readItems]
    exact bind h fun v => ih (v :: items)

/-- A property of reads that the reads of built-in values have and that the parts of readers
keep. -/
structure ValueLaw (c : Codec) (P : ∀ {α : Type}, Read α → Prop) : Prop where
  pure {α : Type} (a : α) : P (pure a : Read α)
  throw {α : Type} (e : ReadFault) : c.Raises e → P (throw e : Read α)
  bind {α β : Type} {r : Read α} {f : α → Read β} : P r → (∀ a, P (f a)) → P (r >>= f)
  word32 : P Read.word32
  word64 : P Read.word64
  block16 : P (Read.take 16)
  block32 : P (Read.take 32)
  bytes : P Read.bytes
  within (packed plain : ByteArray) {r : Read Value} : P r → P (Read.within packed plain r)
  countedAny {n : Nat} (count : Nat) :
    P (c.readAny n) → P (c.readCounted 4 (c.readAny n) count)
  countedAs {n : Nat} (elem : Layout) (count : Nat) :
    P (c.readAs n elem) → P (c.readCounted (elem.width c.widths) (c.readAs n elem) count)

/-- A property that even the reads of bytes have of which built-in values are made. -/
structure ReadLaw (c : Codec) (P : ∀ {α : Type}, Read α → Prop) : Prop extends ValueLaw c P where
  byte : P Read.byte
  take (n : Nat) : P (Read.take n)
  word32 := bind (take 4) fun _ => pure _
  word64 := bind (take 8) fun _ => pure _
  block16 := take 16
  block32 := take 32
  bytes := Read.bytes_of_parts pure bind byte take

namespace ValueLaw

variable {c : Codec} {P : ∀ {α : Type}, Read α → Prop} (law : ValueLaw c P)

include law

theorem bool : P Read.bool := by
  refine law.bind law.word32 fun id => ?_
  split
  · exact law.pure true
  · split
    · exact law.pure false
    · exact law.throw _ trivial

theorem string : P Read.string := by
  refine law.bind law.bytes fun b => ?_
  split
  · exact law.pure _
  · exact law.throw _ trivial

theorem gated {α : Type} {words : Words} {gate : Option Gate} {f : Bool → Read α}
    (stray : ∀ g ∈ gate, words.length ≤ g.slot → c.Raises (.crash g.slot words.length))
    (h : ∀ isThere, P (f isThere)) : P (readGate words gate >>= f) := by
  cases gate with
  | none => exact h true
  | some g =>
    rcases Nat.lt_or_ge g.slot words.length with hs | hs
    · rw [readGate_of_lt (by simpa using hs)]
      exact h _
    · rw [readGate_of_le hs]
      exact law.throw _ (stray g rfl hs)

theorem fields {read : Layout → Read Value} (h : ∀ layout, P (read layout))
    {fields : List FieldPlan} {words : Words} (stray : ∀ f ∈ fields, ∀ slot, f.slot? = some slot →
      words.length ≤ slot → c.Raises (.crash slot words.length)) (given : Fields) :
    P (readFields read fields words given) := by
  induction fields generalizing words given with
  | nil => exact law.pure given
  | cons f rest ih =>
    obtain ⟨here, stray⟩ := List.forall_mem_cons.mp stray
    rw [readFields]
    cases hr : f.role with
    | flags slot =>
      refine law.bind law.word32 fun word => ?_
      rcases Nat.lt_or_ge slot words.length with hs | hs
      · rw [fillWord_of_lt hs]
        exact ih (by simpa using stray) given
      · rw [fillWord_of_le hs]
        exact law.throw _ (here slot (by rw [FieldPlan.slot?, hr]) hs)
    | presence gate =>
      refine law.gated (fun g hg => here g.slot ?_) fun _ => ih stray _
      rw [FieldPlan.slot?, hr, hg]
      rfl
    | value layout gate =>
      refine law.gated (fun g hg => here g.slot ?_) fun isThere => ?_
      · rw [FieldPlan.slot?, hr, hg]
        rfl
      · split
        · exact law.bind (h layout) fun _ => ih stray _
        · exact ih stray given

theorem body {read : Layout → Read Value} (h : ∀ layout, P (read layout)) {p : Plan}
    (hp : p ∈ c.plans) : P (readBody read p) := by
  refine law.bind (law.fields h (fun f hf slot hs behind => ?_) []) fun _ => law.pure _
  rw [List.length_replicate] at behind ⊢
  exact ⟨p, hp, rfl, behind, f, hf, hs⟩

theorem object {read : Layout → Read Value} (h : ∀ layout, P (read layout)) {p : Plan}
    (hp : p ∈ c.plans) : P (do return (← readBody read p).toValue) :=
  law.bind (law.body h hp) fun _ => law.pure _

theorem unpacked {r : Read Value} (h : P r) : P (c.readUnpacked r) := by
  refine law.bind law.bytes fun packed => ?_
  split
  · exact law.throw _ trivial
  · exact law.within packed _ h

theorem boxed {read : Layout → Read Value} {packed : Read Value} (h : ∀ layout, P (read layout))
    (hp : P packed) (union : Option String) : P (c.readBoxed union read packed) := by
  refine law.bind law.word32 fun id => ?_
  split
  · exact hp
  · split
    · exact law.throw _ trivial
    · next p hp =>
      split
      · exact law.object h (mem_of_plan? hp)
      · exact law.throw _ trivial

theorem behind {n : Nat} (hAny : P (c.readAny n)) (hAs : ∀ layout, P (c.readAs n layout))
    (hPackedAny : P (c.readPackedAny n)) (id : UInt32) : P (c.readBehind n id) := by
  rw [readBehind]
  split
  · rw [readVector_eq]
    exact law.bind law.word32 fun _ => law.countedAny _ hAny
  · split
    · exact law.pure _
    · split
      · exact law.pure _
      · split
        · exact hPackedAny
        · split
          · exact law.throw _ trivial
          · next p hp => exact law.object hAs (mem_of_plan? hp)

theorem readAs_succ {n : Nat} (hAny : P (c.readAny n)) (hAs : ∀ layout, P (c.readAs n layout))
    (hPackedAs : ∀ layout, P (c.readPackedAs n layout))
    (hPackedBoxed : ∀ union, P (c.readPackedBoxed n union)) (layout : Layout) :
    P (c.readAs (n + 1) layout) := by
  cases layout with
  | int =>
    rw [readAs]
    exact law.bind (law.bind law.word32 fun _ => law.pure _) fun _ => law.pure _
  | long =>
    rw [readAs]
    exact law.bind (law.bind law.word64 fun _ => law.pure _) fun _ => law.pure _
  | int128 =>
    rw [readAs]
    exact law.bind law.block16 fun _ => law.pure _
  | int256 =>
    rw [readAs]
    exact law.bind law.block32 fun _ => law.pure _
  | double =>
    rw [readAs]
    exact law.bind (law.bind law.word64 fun _ => law.pure _) fun _ => law.pure _
  | string =>
    rw [readAs]
    exact law.bind law.string fun _ => law.pure _
  | bytes =>
    rw [readAs]
    exact law.bind law.bytes fun _ => law.pure _
  | bool =>
    rw [readAs]
    exact law.bind law.bool fun _ => law.pure _
  | boxed union =>
    rw [readAs]
    exact law.boxed hAs (hPackedBoxed union) union
  | bare target =>
    rw [readAs]
    split
    · exact law.throw _ trivial
    · next p hp => exact law.object hAs (mem_of_plan? hp)
  | vector elem isBoxed =>
    have counted : P (c.readVector (elem.width c.widths) (c.readAs n elem)) := by
      rw [readVector_eq]
      exact law.bind law.word32 fun _ => law.countedAs elem _ (hAs elem)
    cases isBoxed with
    | false => exact counted
    | true =>
      rw [readAs_boxedVector]
      refine law.bind law.word32 fun id => ?_
      split
      · exact counted
      · split
        · exact hPackedAs _
        · exact law.throw _ trivial
  | generic =>
    rw [readAs]
    exact hAny

/-- The law holds of all readers: by induction on the levels, since each reader is made of readers
that have one level less. -/
theorem readers (n : Nat) :
    P (c.readAny n) ∧ (∀ layout, P (c.readAs n layout)) ∧ P (c.readPackedAny n) ∧
      (∀ layout, P (c.readPackedAs n layout)) ∧ ∀ union, P (c.readPackedBoxed n union) := by
  induction n with
  | zero =>
    simp only [readAny, readAs, readPackedAny, readPackedAs, readPackedBoxed]
    have tooDeep : P c.tooDeep := law.throw _ trivial
    exact ⟨tooDeep, fun _ => tooDeep, tooDeep, fun _ => tooDeep, fun _ => tooDeep⟩
  | succ n ih =>
    obtain ⟨hAny, hAs, hPackedAny, hPackedAs, hPackedBoxed⟩ := ih
    refine ⟨?_, law.readAs_succ hAny hAs hPackedAs hPackedBoxed, ?_, ?_, ?_⟩
    · rw [readAny_succ]
      exact law.bind law.word32 fun id => law.behind hAny hAs hPackedAny id
    · rw [readPackedAny]
      exact law.unpacked hAny
    · intro layout
      rw [readPackedAs]
      exact law.unpacked (hAs layout)
    · intro union
      rw [readPackedBoxed]
      exact law.unpacked (law.boxed hAs (hPackedBoxed union) union)

theorem decoders {Q : ∀ {α : Type}, Read α → Prop}
    (restart : ∀ {α : Type} {r : Read α}, P r → Q (rewinding r))
    (unknown : ∀ {α : Type} (key : String),
      Q (MonadExcept.throw (ReadFault.unknownEntry key) : Read α)) :
    Q c.decodeAny ∧ (∀ key, Q (c.decodeAs key)) ∧ (∀ key, Q (c.decodeBare key)) ∧
      ∀ method, Q (c.decodeResult method) := by
  obtain ⟨hAny, hAs, -⟩ := law.readers c.config.maxDepth
  refine ⟨restart hAny, fun key => ?_, fun key => ?_, fun method => ?_⟩
  · refine planToRead_bind c key unknown fun p hp => restart (law.bind law.word32 fun id => ?_)
    split
    · exact law.body hAs hp
    · exact law.throw _ trivial
  · exact planToRead_bind c key unknown fun p hp => restart (law.body hAs hp)
  · refine planToRead_bind c (.name method) unknown fun p _ => ?_
    split
    · exact restart (hAs _)
    · exact unknown _

end ValueLaw

end Codec

end TypeLang
