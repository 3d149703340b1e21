import TypeLang.Proofs.Codec.Readers
import TypeLang.Proofs.Read.Refines

/-!
The readers of a codec level by level. Readers with one level more are made of readers with one
level less, so two codecs, or two ways to guard a count of items, are compared one level at a
time.
-/

namespace TypeLang

open Read

/-- Why a count of items is refused, by the width of an item, the count and the bytes that are
left. -/
abbrev CountGuard := (width count remaining : Nat) → Option ReadFault

structure Readers where
  any : Read Value
  as : Layout → Read Value
  packedAny : Read Value
  packedAs : Layout → Read Value
  packedBoxed : Option String → Read Value

def CountGuard.counted (guard : CountGuard) (width : Nat) (read : Read Value) (count : Nat) :
    Read Value := fun cursor =>
  match guard width count cursor.remaining with
  | some fault => .error fault cursor
  | none => (Codec.readItems read count [] >>= fun items => pure (Value.vector items)) cursor

def CountGuard.vector (guard : CountGuard) (width : Nat) (read : Read Value) : Read Value :=
  word32 >>= fun count => guard.counted width read count.toNat

namespace Codec

def nextAny (c : Codec) (guard : CountGuard) (r : Readers) : Read Value := do
  let id ← word32
  if id = Id.vector then guard.vector 4 r.any
  else if id = Id.boolTrue then return .bool true
  else if id = Id.boolFalse then return .bool false
  else if c.isPacked id then r.packedAny
  else match c.plan? (.id id) with
    | none => throw (.unknownConstructor id)
    | some p => return (← readBody r.as p).toValue

def nextAs (c : Codec) (guard : CountGuard) (r : Readers) : Layout → Read Value
  | .boxed union => c.readBoxed union r.as (r.packedBoxed union)
  | .bare target =>
    match c.plan? (.id target) with
    | none => throw (.unknownConstructor target)
    | some p => return (← readBody r.as p).toValue
  | .vector elem false => guard.vector (elem.width c.widths) (r.as elem)
  | .vector elem true => do
    let id ← word32
    if id = Id.vector then guard.vector (elem.width c.widths) (r.as elem)
    else if c.isPacked id then r.packedAs (.vector elem true)
    else throw (.unexpectedConstructor "Vector" id)
  | .generic => r.any
  | layout => c.readAs 1 layout

section

variable (c : Codec) (guard : CountGuard) (r : Readers)

theorem nextAs_bare (target : UInt32) :
    c.nextAs guard r (.bare target) =
      match c.plan? (.id target) with
      | none => throw (.unknownConstructor target)
      | some p => readBody r.as p >>= fun o => pure o.toValue := rfl

theorem nextAs_vector (elem : Layout) :
    c.nextAs guard r (.vector elem false) = guard.vector (elem.width c.widths) (r.as elem) := rfl

theorem nextAs_boxedVector (elem : Layout) :
    c.nextAs guard r (.vector elem true) = word32 >>= fun id =>
      if id = Id.vector then guard.vector (elem.width c.widths) (r.as elem)
      else if c.isPacked id then r.packedAs (.vector elem true)
      else throw (.unexpectedConstructor "Vector" id) := rfl

end

def next (c : Codec) (guard : CountGuard) (r : Readers) : Readers where
  any := c.nextAny guard r
  as := c.nextAs guard r
  packedAny := c.readUnpacked r.any
  packedAs layout := c.readUnpacked (r.as layout)
  packedBoxed union := c.readUnpacked (c.readBoxed union r.as (r.packedBoxed union))

def guardedReaders (c : Codec) (guard : CountGuard) : (n : Nat) → Readers
  | 0 => ⟨c.tooDeep, fun _ => c.tooDeep, c.tooDeep, fun _ => c.tooDeep, fun _ => c.tooDeep⟩
  | n + 1 => c.next guard (c.guardedReaders guard n)

def readers (c : Codec) (n : Nat) : Readers where
  any := c.readAny n
  as := c.readAs n
  packedAny := c.readPackedAny n
  packedAs := c.readPackedAs n
  packedBoxed := c.readPackedBoxed n

theorem vector_countFault? (c : Codec) (width : Nat) (read : Read Value) :
    CountGuard.vector c.countFault? width read = c.readVector width read :=
  (c.readVector_eq width read).symm

theorem nextAny_readers (c : Codec) (n : Nat) :
    c.nextAny c.countFault? (c.readers n) = c.readAny (n + 1) := by
  rw [nextAny, vector_countFault?]
  rfl

theorem nextAs_readers (c : Codec) (n : Nat) (layout : Layout) :
    c.nextAs c.countFault? (c.readers n) layout = c.readAs (n + 1) layout := by
  cases layout with
  | vector elem isBoxed =>
    cases isBoxed with
    | false =>
      rw [nextAs_vector, vector_countFault?]
      rfl
    | true =>
      rw [nextAs_boxedVector, vector_countFault?, readAs_boxedVector]
      rfl
  | _ => rfl

theorem guardedReaders_countFault? (c : Codec) (n : Nat) :
    c.guardedReaders c.countFault? n = c.readers n := by
  induction n with
  | zero => rfl
  | succ n ih =>
    rw [guardedReaders, ih, next, nextAny_readers, funext (c.nextAs_readers n)]
    rfl

end Codec

structure Readers.Refines (E : ReadFault → Prop) (r r' : Readers) : Prop where
  any : Read.Refines E r.any r'.any
  as (layout : Layout) : Read.Refines E (r.as layout) (r'.as layout)
  packedAny : Read.Refines E r.packedAny r'.packedAny
  packedAs (layout : Layout) : Read.Refines E (r.packedAs layout) (r'.packedAs layout)
  packedBoxed (union : Option String) :
    Read.Refines E (r.packedBoxed union) (r'.packedBoxed union)

structure Readers.CountedRefines (E : ReadFault → Prop) (widths : Widths)
    (guard guard' : CountGuard) (r r' : Readers) : Prop where
  any (count : Nat) : Read.Refines E (guard.counted 4 r.any count) (guard'.counted 4 r'.any count)
  as (elem : Layout) (count : Nat) :
    Read.Refines E (guard.counted (elem.width widths) (r.as elem) count)
      (guard'.counted (elem.width widths) (r'.as elem) count)

def ReadFault.IsRefusal : ReadFault → Prop
  | .tooDeep _ | .tooManyItems _ _ | .unexpectedConstructor _ _ => True
  | _ => False

namespace Codec

/-- Two codecs of one schema, the second of which does not ask for more. -/
structure Laxer (c c' : Codec) : Prop where
  plans : c'.plans = c.plans
  widths : c'.widths = c.widths
  unpack : c'.unpack = c.unpack
  inflateGzip : c'.config.inflateGzip = c.config.inflateGzip
  checkUnions : c'.config.checkUnions = true → c.config.checkUnions = true

theorem laxer_refl (c : Codec) : c.Laxer c := ⟨rfl, rfl, rfl, rfl, id⟩

/-- Which faults tell two such codecs apart: the want of a level, and a constructor that only the
first codec did not expect. -/
structure Excuses (c c' : Codec) (E : ReadFault → Prop) : Prop where
  tooDeep (limit : Nat) : E (.tooDeep limit)
  unexpected : c'.config.checkUnions = c.config.checkUnions ∨
    ∀ expected found, E (.unexpectedConstructor expected found)

variable {c c' : Codec} {E : ReadFault → Prop}

theorem excuses_of_refusals (c c' : Codec) (refusals : ∀ e : ReadFault, e.IsRefusal → E e) :
    c.Excuses c' E :=
  ⟨fun _ => refusals _ trivial, .inr fun _ _ => refusals _ trivial⟩

theorem Laxer.plan? (h : c.Laxer c') (key : Key) : c'.plan? key = c.plan? key := by
  cases key with
  | name name => rw [Codec.plan?, Codec.plan?, h.plans]
  | id id => rw [Codec.plan?, Codec.plan?, h.plans]

theorem Laxer.isPacked (h : c.Laxer c') (id : UInt32) : c'.isPacked id = c.isPacked id := by
  rw [Codec.isPacked, Codec.isPacked, h.inflateGzip]

theorem Laxer.admits (h : c.Laxer c') {union : Option String} {p : Plan}
    (ha : c.admits union p) : c'.admits union p := by
  have hu := h.checkUnions
  revert ha hu
  rw [Codec.admits, Codec.admits]
  cases c'.config.checkUnions with
  | false => simp
  | true =>
    intro ha hu
    rwa [hu rfl] at ha

theorem refines_readItems {r r' : Read Value} (h : Refines E r r') (count : Nat)
    (items : List Value) : Refines E (readItems r count items) (readItems r' count items) := by
  induction count generalizing items with
  | zero => exact refines_refl _
  | succ n ih => exact h.bind fun v => ih (v :: items)

theorem refines_counted {guard guard' : CountGuard} {r r' : Read Value} (h : Refines E r r')
    {width count : Nat}
    (pass : ∀ remaining, guard width count remaining = none → guard' width count remaining = none)
    (refuse : ∀ remaining e, guard width count remaining = some e → ¬ E e →
      guard' width count remaining = some e) :
    Refines E (guard.counted width r count) (guard'.counted width r' count) := by
  have items := (refines_readItems h count []).bind fun items =>
    refines_refl (pure (Value.vector items))
  refine ⟨fun {d d' v} hr => ?_, fun {d d' e} hr he => ?_⟩
  · rw [CountGuard.counted] at hr ⊢
    cases hg : guard width count d.remaining with
    | some fault =>
      rw [hg] at hr
      cases hr
    | none =>
      rw [hg] at hr
      rw [pass _ hg]
      exact items.ok hr
  · rw [CountGuard.counted] at hr ⊢
    cases hg : guard width count d.remaining with
    | some fault =>
      rw [hg] at hr
      cases hr
      rw [refuse _ _ hg he]
    | none =>
      rw [hg] at hr
      rw [pass _ hg]
      exact items.error hr he

theorem refines_readFields {read read' : Layout → Read Value}
    (h : ∀ layout, Refines E (read layout) (read' layout)) (fields : List FieldPlan)
    (words : Words) (given : Fields) :
    Refines E (readFields read fields words given) (readFields read' fields words given) := by
  induction fields generalizing words given with
  | nil => exact refines_refl _
  | cons f rest ih =>
    rw [readFields, readFields]
    split
    · exact (refines_refl word32).bind fun _ => (refines_refl _).bind fun _ => ih _ _
    · exact (refines_refl _).bind fun _ => ih _ _
    · refine (refines_refl _).bind fun isThere => ?_
      split
      · exact (h _).bind fun _ => ih _ _
      · exact ih _ _

theorem refines_readBody {read read' : Layout → Read Value}
    (h : ∀ layout, Refines E (read layout) (read' layout)) (p : Plan) :
    Refines E (readBody read p) (readBody read' p) :=
  (refines_readFields h _ _ _).bind fun _ => refines_refl _

theorem refines_object {read read' : Layout → Read Value}
    (h : ∀ layout, Refines E (read layout) (read' layout)) (p : Plan) :
    Refines E (do return (← readBody read p).toValue) (do return (← readBody read' p).toValue) :=
  (refines_readBody h p).bind fun _ => refines_refl _

theorem refines_within {r r' : Read Value} (h : Refines E r r') (packed plain : ByteArray) :
    Refines E (within packed plain r) (within packed plain r') := by
  refine ⟨fun {d d' v} hr => ?_, fun {d d' e} hr he => ?_⟩
  · rw [within] at hr ⊢
    cases hi : r ⟨plain, 0, d.unpacked ++ [(packed.size, plain.size)]⟩ with
    | error e' inner =>
      rw [hi] at hr
      cases hr
    | ok v' inner =>
      rw [hi] at hr
      rw [h.ok hi]
      exact hr
  · rw [within] at hr ⊢
    cases hi : r ⟨plain, 0, d.unpacked ++ [(packed.size, plain.size)]⟩ with
    | ok v inner =>
      rw [hi] at hr
      cases hr
    | error e' inner =>
      rw [hi] at hr
      cases hr
      rw [h.error hi he]

namespace Laxer

variable (lax : c.Laxer c') {r r' : Read Value} {read read' : Layout → Read Value}

include lax

theorem refines_readUnpacked (h : Refines E r r') :
    Refines E (c.readUnpacked r) (c'.readUnpacked r') := by
  refine (refines_refl bytes).bind fun packed => ?_
  rw [lax.unpack]
  split
  · exact refines_refl _
  · exact refines_within h _ _

theorem refines_readBoxed (excuses : c.Excuses c' E)
    (h : ∀ layout, Refines E (read layout) (read' layout)) (hp : Refines E r r')
    (union : Option String) :
    Refines E (c.readBoxed union read r) (c'.readBoxed union read' r') := by
  refine (refines_refl word32).bind fun id => ?_
  rw [lax.isPacked, lax.plan?]
  split
  · exact hp
  · split
    · exact refines_refl _
    · split
      · next ha =>
        rw [if_pos (lax.admits ha)]
        exact refines_object h _
      · next ha =>
        rcases excuses.unexpected with same | unexpected
        · rw [Codec.admits, ← same, ← Codec.admits] at ha
          rw [if_neg ha]
          exact refines_refl _
        · exact refines_throw (unexpected _ _) _

section

variable {guard guard' : CountGuard} {r r' : Readers} (h : r.Refines E r')
  (counted : r.CountedRefines E c.widths guard guard' r')

include h counted

theorem refines_nextAny : Refines E (c.nextAny guard r) (c'.nextAny guard' r') := by
  refine (refines_refl word32).bind fun id => ?_
  rw [lax.isPacked, lax.plan?]
  split
  · exact (refines_refl word32).bind fun count => counted.any count.toNat
  · split
    · exact refines_refl _
    · split
      · exact refines_refl _
      · split
        · exact h.packedAny
        · split
          · exact refines_refl _
          · exact refines_object h.as _

theorem refines_nextAs (excuses : c.Excuses c' E) (layout : Layout) :
    Refines E (c.nextAs guard r layout) (c'.nextAs guard' r' layout) := by
  have vector : ∀ elem, Refines E (guard.vector (elem.width c.widths) (r.as elem))
      (guard'.vector (elem.width c'.widths) (r'.as elem)) := by
    intro elem
    rw [lax.widths]
    exact (refines_refl word32).bind fun count => counted.as elem count.toNat
  cases layout with
  | boxed union => exact lax.refines_readBoxed excuses h.as (h.packedBoxed union) union
  | bare target =>
    rw [nextAs_bare, nextAs_bare, lax.plan?]
    split
    · exact refines_refl _
    · exact refines_object h.as _
  | vector elem isBoxed =>
    cases isBoxed with
    | false => exact vector elem
    | true =>
      refine (refines_refl word32).bind fun id => ?_
      rw [lax.isPacked]
      split
      · exact vector elem
      · split
        · exact h.packedAs _
        · exact refines_refl _
  | generic => exact h.any
  | _ => exact refines_refl _

theorem refines_next (excuses : c.Excuses c' E) :
    (c.next guard r).Refines E (c'.next guard' r') where
  any := lax.refines_nextAny h counted
  as := lax.refines_nextAs h counted excuses
  packedAny := lax.refines_readUnpacked h.any
  packedAs layout := lax.refines_readUnpacked (h.as layout)
  packedBoxed union := lax.refines_readUnpacked
    (lax.refines_readBoxed excuses h.as (h.packedBoxed union) union)

end

/-- All levels, where the second readers have at least as many: by induction on those of the first
ones, which fail for want of a level where they have none. -/
theorem refines_levels (excuses : c.Excuses c' E) {guard guard' : CountGuard}
    (counted : ∀ m m', (c.guardedReaders guard m).Refines E (c'.guardedReaders guard' m') →
      (c.guardedReaders guard m).CountedRefines E c.widths guard guard'
        (c'.guardedReaders guard' m'))
    {n n' : Nat} (h : n ≤ n') :
    (c.guardedReaders guard n).Refines E (c'.guardedReaders guard' n') := by
  induction n generalizing n' with
  | zero =>
    have deep : E (.tooDeep c.config.maxDepth) := excuses.tooDeep _
    exact ⟨refines_throw deep _, fun _ => refines_throw deep _, refines_throw deep _,
      fun _ => refines_throw deep _, fun _ => refines_throw deep _⟩
  | succ n ih =>
    cases n' with
    | zero => cases h
    | succ n' =>
      have inner := ih (Nat.le_of_succ_le_succ h)
      exact lax.refines_next inner (counted n n' inner) excuses

theorem refines_guardedReaders (refusals : ∀ e : ReadFault, e.IsRefusal → E e)
    {guard guard' : CountGuard}
    (counted : ∀ m m', (c.guardedReaders guard m).Refines E (c'.guardedReaders guard' m') →
      (c.guardedReaders guard m).CountedRefines E c.widths guard guard'
        (c'.guardedReaders guard' m'))
    {n n' : Nat} (h : n ≤ n') :
    (c.guardedReaders guard n).Refines E (c'.guardedReaders guard' n') :=
  lax.refines_levels (c.excuses_of_refusals c' refusals) counted h

end Laxer

theorem refines_readers (c : Codec) {n n' : Nat} (h : n ≤ n') :
    (c.readers n).Refines ReadFault.IsTooDeep (c.readers n') := by
  rw [← guardedReaders_countFault?, ← guardedReaders_countFault?]
  refine c.laxer_refl.refines_levels ⟨fun _ => trivial, .inl rfl⟩ (fun m m' hr => ?_) h
  have counted : ∀ {r r' : Read Value}, Refines ReadFault.IsTooDeep r r' → ∀ width count,
      Refines ReadFault.IsTooDeep (CountGuard.counted c.countFault? width r count)
        (CountGuard.counted c.countFault? width r' count) := fun hr _ _ =>
    refines_counted hr (fun _ hg => hg) fun _ _ hg _ => hg
  exact ⟨counted hr.any 4, fun elem => counted (hr.as elem) _⟩

end Codec

namespace Readers

variable (r : Readers) (c : Codec)

def decodeAny : Read Value := rewinding r.any

def decodeAs (key : Codec.Key) : Read Object := do
  let p ← c.planToRead key
  rewinding do
    let id ← word32
    if id = p.id then Codec.readBody r.as p else throw (.unexpectedConstructor p.name id)

def decodeBare (key : Codec.Key) : Read Object := do
  let p ← c.planToRead key
  rewinding (Codec.readBody r.as p)

def decodeResult (method : String) : Read Value := do
  let p ← c.planToRead (.name method)
  match p.result with
  | some layout => rewinding (r.as layout)
  | none => throw (.unknownEntry s!"method {method}")

end Readers

namespace Codec

theorem decodeAny_readers (c : Codec) : (c.readers c.config.maxDepth).decodeAny = c.decodeAny := rfl

theorem decodeAs_readers (c : Codec) (key : Key) :
    (c.readers c.config.maxDepth).decodeAs c key = c.decodeAs key := rfl

theorem decodeBare_readers (c : Codec) (key : Key) :
    (c.readers c.config.maxDepth).decodeBare c key = c.decodeBare key := rfl

theorem decodeResult_readers (c : Codec) (method : String) :
    (c.readers c.config.maxDepth).decodeResult c method = c.decodeResult method := rfl

theorem Laxer.refines_decode {c c' : Codec} (lax : c.Laxer c') {E : ReadFault → Prop}
    {r r' : Readers} (h : r.Refines E r') :
    Refines E r.decodeAny r'.decodeAny ∧
      (∀ key, Refines E (r.decodeAs c key) (r'.decodeAs c' key)) ∧
      (∀ key, Refines E (r.decodeBare c key) (r'.decodeBare c' key)) ∧
      ∀ method, Refines E (r.decodeResult c method) (r'.decodeResult c' method) := by
  have plan : ∀ key, c'.planToRead key = c.planToRead key := by
    intro key
    rw [planToRead, planToRead, lax.plan?]
  refine ⟨h.any.rewinding, ?_, ?_, ?_⟩
  · intro key
    rw [Readers.decodeAs, Readers.decodeAs, plan]
    refine (refines_refl _).bind fun p => Refines.rewinding ?_
    refine (refines_refl word32).bind fun id => ?_
    split
    · exact refines_readBody h.as p
    · exact refines_refl _
  · intro key
    rw [Readers.decodeBare, Readers.decodeBare, plan]
    exact (refines_refl _).bind fun p => (refines_readBody h.as p).rewinding
  · intro method
    rw [Readers.decodeResult, Readers.decodeResult, plan]
    refine (refines_refl _).bind fun p => ?_
    split
    · exact (h.as _).rewinding
    · exact refines_refl _

end Codec

end TypeLang
