import TypeLang.Proofs.Codec.Readers
import TypeLang.Proofs.Codec.Writers

/-!
When a codec crashes. It does so only where a plan looks up a flags word that it does not have;
and a plan with a bit of such a word makes encoding crash, whatever comes first.
-/

namespace TypeLang

theorem Read.FailsWith.within {α : Type} {E : ReadFault → Prop} {r : Read α}
    (h : FailsWith E r) (packed plain : ByteArray) : FailsWith E (within packed plain r) := by
  intro c d e hr
  rw [Read.within] at hr
  split at hr
  · cases hr
  · next he =>
    cases hr
    exact h he

namespace Plan

theorem Planned.length_le {s : Schema} {total : Nat} {slots : Dict Nat} {args : List Argument}
    {fields : List FieldPlan} (h : Planned s total slots args fields) : slots.length ≤ total := by
  induction h with
  | nil h => exact Nat.le_of_eq h
  | @flags slots a _ _ _ _ ih => exact Nat.le_trans (Dict.length_insert a.name _ slots).1 ih
  | presence _ _ _ ih => exact ih
  | value _ _ _ _ ih => exact ih

theorem Planned.filled {s : Schema} {total : Nat} {slots : Dict Nat} {args : List Argument}
    {fields : List FieldPlan} (h : Planned s total slots args fields) :
    ∀ f ∈ fields, ∀ slot, f.role = .flags slot → slot < total := by
  induction h with
  | nil => simp
  | @flags slots a _ _ _ hp ih =>
    refine List.forall_mem_cons.mpr ⟨?_, ih⟩
    rintro _ ⟨⟩
    have := (Dict.length_insert a.name slots.length slots).2
    have := hp.length_le
    omega
  | presence _ _ _ ih => exact List.forall_mem_cons.mpr ⟨by simp, ih⟩
  | value _ _ _ _ ih => exact List.forall_mem_cons.mpr ⟨by simp, ih⟩

end Plan

namespace Codec

open Read Write

/-- Whether each plan has the flags words that it looks up. -/
def Complete (c : Codec) : Prop := ∀ p ∈ c.plans, ∀ slot length, ¬ p.Strays slot length

theorem OfSchema.complete {s : Schema} {config : Config} {unpack : ByteArray → Option ByteArray}
    {c : Codec} (h : OfSchema s config unpack c)
    (flags : ∀ e ∈ s.entries, ((e.arguments.filter (·.type = .flags)).map (·.name)).Nodup) :
    c.Complete := by
  rintro p hp slot length ⟨rfl, behind, f, hf, hs⟩
  exact absurd ((h.slotted flags hp).slots f hf slot hs) (Nat.not_lt.mpr behind)

section

variable {c : Codec}

theorem Complete.not_isCrash_of_raises (h : c.Complete) {e : ReadFault} (he : c.Raises e) :
    ¬ e.IsCrash := by
  cases e with
  | crash slot length =>
    obtain ⟨p, hp, strays⟩ := he
    exact absurd strays (h p hp slot length)
  | _ => exact not_false

theorem Complete.not_isCrash_of_refuses (h : c.Complete) {e : WriteFault} (he : c.Refuses e) :
    ¬ e.IsCrash := by
  cases e with
  | crash slot length =>
    obtain ⟨p, hp, strays⟩ := he
    exact absurd strays (h p hp slot length)
  | _ => exact not_false

theorem raises_of_countFault? {width count remaining : Nat} {fault : ReadFault}
    (h : c.countFault? width count remaining = some fault) : c.Raises fault := by
  rw [countFault?] at h
  split at h
  · split at h
    · cases h
      trivial
    · cases h
  · split at h
    · cases h
      trivial
    · cases h

theorem raises_readCounted (width : Nat) {r : Read Value} (h : Read.FailsWith c.Raises r)
    (count : Nat) : Read.FailsWith c.Raises (c.readCounted width r count) := by
  have items := (readItems_of_parts (P := Read.FailsWith c.Raises) failsWith_pure .bind h count
    []).bind fun items => failsWith_pure (Value.vector items)
  intro d d' e hr
  rw [readCounted] at hr
  split at hr
  · next fault hf =>
    cases hr
    exact raises_of_countFault? hf
  · exact items hr

end

theorem readLaw_raises (c : Codec) : ReadLaw c (Read.FailsWith c.Raises) where
  pure a := failsWith_pure a
  throw _ he := failsWith_throw he
  bind hr hf := hr.bind hf
  byte := failsWith_byte fun _ _ => trivial
  take n := failsWith_take (fun _ _ => trivial) n
  within packed plain _ hr := hr.within packed plain
  countedAny count hr := raises_readCounted 4 hr count
  countedAs elem count hr := raises_readCounted (elem.width c.widths) hr count

theorem writeLaw_refuses (c : Codec) : WriteLaw c.Refuses (Write.FailsWith c.Refuses) where
  pure a b e b' h := by cases h
  throw he b e b' h := by
    cases h
    exact he
  plain {e} he := by
    cases e with
    | crash slot length => exact absurd trivial he
    | _ => trivial
  emit b buffer e buffer' h := by cases h
  bind h h' := h.bind h'

structure Crashless (c : Codec) : Prop where
  encode (key : Key) (fields : Fields) : Write.FailsWith (¬ ·.IsCrash) (c.encode key fields)
  encodeBare (key : Key) (fields : Fields) :
    Write.FailsWith (¬ ·.IsCrash) (c.encodeBare key fields)
  decodeAny : Read.FailsWith (¬ ·.IsCrash) c.decodeAny
  decodeAs (key : Key) : Read.FailsWith (¬ ·.IsCrash) (c.decodeAs key)
  decodeBare (key : Key) : Read.FailsWith (¬ ·.IsCrash) (c.decodeBare key)
  decodeResult (method : String) : Read.FailsWith (¬ ·.IsCrash) (c.decodeResult method)

theorem refuses_encode (c : Codec) (bare : Bool) (key : Key) (fields : Fields) :
    Write.FailsWith c.Refuses (if bare then c.encodeBare key fields else c.encode key fields) := by
  have law := writeLaw_refuses c
  have pending := law.pending (fun _ he => he) fields
  cases bare with
  | true =>
    exact law.planned c key fun p hp => (law.bodyOf (fun _ he => he) pending hp).appending
  | false =>
    exact law.planned c key fun p hp =>
      ((law.emit _).bind fun _ => law.bodyOf (fun _ he => he) pending hp).appending

theorem Complete.crashless {c : Codec} (h : c.Complete) : c.Crashless := by
  have refuses (bare : Bool) (key : Key) (fields : Fields) : Write.FailsWith (¬ ·.IsCrash)
      (if bare then c.encodeBare key fields else c.encode key fields) := fun _ _ _ he =>
    h.not_isCrash_of_refuses (c.refuses_encode bare key fields he)
  obtain ⟨any, as, bare, result⟩ := (readLaw_raises c).decoders
    (Q := Read.FailsWith (¬ ·.IsCrash))
    (fun hr _ _ _ he => h.not_isCrash_of_raises (hr.rewinding he))
    fun _ => failsWith_throw not_false
  exact ⟨refuses false, refuses true, any, as, bare, result⟩

def trueFields (p : Plan) : Fields := p.fields.map fun f => (f.name, .bool true)

theorem get?_trueFields {p : Plan} {f : FieldPlan} (hf : f ∈ p.fields) :
    Dict.get? (trueFields p) f.name = some (.bool true) := by
  have mem : f.name ∈ (trueFields p).map (·.1) := by
    rw [trueFields, List.map_map]
    exact List.mem_map_of_mem hf
  obtain ⟨v, hv⟩ := Dict.exists_get?_of_mem mem
  obtain ⟨f', -, h⟩ := List.mem_map.mp (Dict.mem_of_get? hv)
  rw [hv, ← (Prod.mk.inj h).2]

theorem isCrash_of_flagsWords {entry : String} {given : String → Option Value}
    {fields : List FieldPlan} {words : Words}
    (all : ∀ f ∈ fields, given f.name = some (.bool true)) {e : WriteFault}
    (h : flagsWords entry given fields words = .error e) : e.IsCrash := by
  induction fields generalizing words with
  | nil => cases h
  | cons f rest ih =>
    obtain ⟨here, all⟩ := List.forall_mem_cons.mp all
    have marked : ∀ {g : Gate}, (setBit words g >>= flagsWords entry given rest) = .error e →
        e.IsCrash := by
      intro g h'
      rcases except_bind_eq_error.mp h' with h' | ⟨words', -, h'⟩
      · rw [setBit] at h'
        split at h'
        · cases h'
        · cases h'
          trivial
      · exact ih all h'
    unfold flagsWords at h
    rw [here] at h
    split at h
    · exact marked h
    · exact ih all h
    · exact ih all h
    · next notBool _ hv =>
      cases hv
      exact absurd rfl (notBool true)
    · exact marked h
    · next hv => cases hv
    · exact ih all h

theorem exists_crash_encode {c : Codec} {p : Plan} {key : Key} (hp : c.plan? key = some p)
    (stray : ∃ f ∈ p.fields, ∃ g, f.gate? = some g ∧ p.flagsWords ≤ g.slot) :
    ∃ e, e.IsCrash ∧ ∃ b, c.encode key (trueFields p) .empty = .error e b := by
  obtain ⟨f, hf, g, hg, behind⟩ := stray
  have all : ∀ f ∈ p.fields, Dict.get? (trueFields p) f.name = some (.bool true) := fun _ =>
    get?_trueFields
  cases hw : flagsWords p.name (Dict.get? (trueFields p)) p.fields
      (List.replicate p.flagsWords 0) with
  | ok words =>
    obtain ⟨-, marked, -⟩ := (flagsWords_eq_ok _ _ _ _ _).mp hw
    rw [List.length_replicate] at marked
    have on : f.isOn (Dict.get? (trueFields p)) = true := by
      rw [FieldPlan.isOn, all f hf]
      rw [FieldPlan.gate?] at hg
      split at hg
      · cases hg
      · next hr => rw [hr]
      · next hr => rw [hr]
    exact absurd (marked f hf on g hg) (Nat.not_lt.mpr behind)
  | error e =>
    refine ⟨e, isCrash_of_flagsWords all hw, .empty, ?_⟩
    have body : Fails (writeBody p (c.pending (trueFields p))) .empty e := by
      rw [writeBody, get?_pending_value, hw]
      exact (fails_throw e).bind _
    rw [encode, planToWrite, hp]
    exact ((writes_emit _).bind_fails body).appending .empty

/-- A codec of a schema never crashes just if its plans have the flags words that they look up. -/
theorem crashless_iff_complete {s : Schema} {config : Config}
    {unpack : ByteArray → Option ByteArray} {c : Codec} (hc : ofSchema s config unpack = .ok c) :
    c.Crashless ↔ c.Complete := by
  have compiled := ofSchema_eq_ok hc
  refine ⟨fun crashless => ?_, Complete.crashless⟩
  rintro p hp slot length ⟨rfl, behind, f, hf, hs⟩
  obtain ⟨e, he, planned⟩ := compiled.entry hp
  have key : c.plan? (.id p.id) = some p :=
    plan?_id (by rw [compiled.ids]; exact Schema.ids_nodup _) hp
  have there : f.role ≠ .flags slot := fun hr =>
    absurd (planned.fields.filled f hf slot hr) (Nat.not_lt.mpr behind)
  obtain ⟨g, hg, rfl⟩ := (FieldPlan.slot?_eq_some_iff.mp hs).resolve_left there
  obtain ⟨fault, crash, b, h⟩ := exists_crash_encode key ⟨f, hf, g, hg, behind⟩
  exact crashless.encode _ _ h crash

/-- `twice#1 a:# a:# x:a.0?int = Twice` -/
def twice : Entry where
  kind := .constructor
  name := "twice"
  id := 1
  type := .named "Twice" false
  generics := []
  arguments := [⟨"a", .flags, none⟩, ⟨"a", .flags, none⟩, ⟨"x", .int, some ⟨"a", 0⟩⟩]
  comment := none

def twiceSchema : Schema := .of [twice] [] rfl

def twicePlan : Plan where
  id := 1
  name := "twice"
  kind := .constructor
  union := some "Twice"
  fields := [⟨"a", .flags, .flags 0⟩, ⟨"a", .flags, .flags 0⟩,
    ⟨"x", .int, .value .int (some ⟨1, 0⟩)⟩]
  flagsWords := 1
  result := none

def twiceCodec : Codec := ⟨{}, Deflate.unpack, [twicePlan], [(1, 8)]⟩

theorem ofSchema_twice : ofSchema twiceSchema {} = .ok twiceCodec := rfl

def twiceBytes : ByteArray := ⟨#[1, 0, 0, 0, 0, 0, 0, 0, 0, 0, 0, 0]⟩

end Codec

end TypeLang
