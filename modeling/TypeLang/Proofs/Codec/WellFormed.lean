import TypeLang.Proofs.Codec.Conforms

namespace TypeLang

open Decl

def flagsIn (args : List Argument) : Nat := args.countP (·.type = .flags)

theorem flagsIn_append (args more : List Argument) :
    flagsIn (args ++ more) = flagsIn args + flagsIn more := List.countP_append

theorem flagsIn_flags {a : Argument} (h : a.type = .flags) : flagsIn [a] = 1 := by
  simp [flagsIn, h]

theorem flagsIn_other {a : Argument} (h : a.type ≠ .flags) : flagsIn [a] = 0 := by
  simp [flagsIn, h]

theorem flagsIn_lt {b : Argument} (h : b.type = .flags) (front back : List Argument) :
    flagsIn front < flagsIn (front ++ b :: back) := by
  rw [List.append_cons, flagsIn_append, flagsIn_append, flagsIn_flags h]
  omega

/-- Whether a name stands for a constructor of the schema that has the id `target`, and the codec
has its plan, at the place of the constructor in the schema. -/
def Codec.Points (s : Schema) (c : Codec) (name : String) (target : UInt32) : Prop :=
  ∃ (k : Nat) (e : Entry) (p : Plan), s.entries[k]? = some e ∧ s.Denotes name e ∧ e.id = target ∧
    c.plans[k]? = some p ∧ c.plan? (.id target) = some p ∧ Plan.OfEntry s e p ∧
      p.kind = .constructor

namespace Plan

def BareWithin (s : Schema) (c : Codec) : Ty → Layout → Prop
  | .named name true, .bare target => c.Points s name target
  | .vector elem _, .vector layout _ => BareWithin s c elem layout
  | _, _ => True

/-- The gate of a guard: a bit of the flags word that the guard names. It is one of those to the
left. -/
inductive GateOf (left : List Argument) : Option FlagBit → Option Gate → Prop
  | none : GateOf left none none
  | some {front back : List Argument} {b : Argument} {g : FlagBit} :
      left = front ++ b :: back → b.type = .flags → b.name = g.flags → g.bit < 32 →
      GateOf left (some g) (some ⟨flagsIn front, g.bit⟩)

inductive RoleOf (s : Schema) (c : Codec) (left : List Argument) (a : Argument) : Role → Prop
  | flags : a.type = .flags → RoleOf s c left a (.flags (flagsIn left))
  | presence {gate : Option Gate} : a.type = .presence → GateOf left a.guard gate →
      RoleOf s c left a (.presence gate)
  | value {layout : Layout} {gate : Option Gate} : Laid s a.type layout →
      BareWithin s c a.type layout → GateOf left a.guard gate →
      RoleOf s c left a (.value layout gate)

structure FieldAt (s : Schema) (c : Codec) (left : List Argument) (a : Argument) (f : FieldPlan) :
    Prop where
  name : f.name = a.name
  type : f.type = a.type
  role : RoleOf s c left a f.role

inductive ResultOf (s : Schema) (c : Codec) (e : Entry) : Option Layout → Prop
  | constructor : e.kind = .constructor → ResultOf s c e none
  | method {layout : Layout} : e.kind = .method → Laid s e.type layout →
      BareWithin s c e.type layout → ResultOf s c e (some layout)

/-- A plan whose fields are those of the arguments, one for each and in order, and which looks at
nothing that is not there. -/
structure WellFormed (s : Schema) (c : Codec) (e : Entry) (p : Plan) : Prop where
  id : p.id = e.id
  name : p.name = e.name
  kind : p.kind = e.kind
  length : p.fields.length = e.arguments.length
  field {i : Nat} {a : Argument} {f : FieldPlan} : e.arguments[i]? = some a →
    p.fields[i]? = some f → FieldAt s c (e.arguments.take i) a f
  flagsWords : p.flagsWords = flagsIn e.arguments
  result : ResultOf s c e p.result

structure Numbers (slots : Dict Nat) (left : List Argument) : Prop where
  length : slots.length = flagsIn left
  slot {name : String} {n : Nat} : slots.get? name = some n → ∃ front b back,
    left = front ++ b :: back ∧ b.type = .flags ∧ b.name = name ∧ n = flagsIn front

theorem numbers_nil : Numbers [] [] := ⟨rfl, fun h => by cases h⟩

namespace Numbers

variable {slots : Dict Nat} {left : List Argument} {a : Argument}

theorem flags (h : Numbers slots left) (ha : a.type = .flags) (new : slots.get? a.name = none) :
    Numbers (Dict.insert a.name slots.length slots) (left ++ [a]) where
  length := by
    rw [Dict.length_insert_of_new new, h.length, flagsIn_append, flagsIn_flags ha]
  slot {name n} hn := by
    by_cases hname : name = a.name
    · subst hname
      rw [Dict.get?_insert_self] at hn
      cases hn
      exact ⟨left, a, [], rfl, ha, rfl, h.length⟩
    · rw [Dict.get?_insert_of_ne hname] at hn
      obtain ⟨front, b, back, rfl, hb, rfl, rfl⟩ := h.slot hn
      exact ⟨front, b, back ++ [a], by simp, hb, rfl, rfl⟩

theorem other (h : Numbers slots left) (ha : a.type ≠ .flags) : Numbers slots (left ++ [a]) where
  length := by rw [h.length, flagsIn_append, flagsIn_other ha, Nat.add_zero]
  slot hn := by
    obtain ⟨front, b, back, rfl, hb, rfl, rfl⟩ := h.slot hn
    exact ⟨front, b, back ++ [a], by simp, hb, rfl, rfl⟩

theorem new (h : Numbers slots left) (ha : a.type = .flags) {rest : List Argument}
    (distinct : (((left ++ a :: rest).filter (·.type = .flags)).map (·.name)).Nodup) :
    slots.get? a.name = none := by
  rw [Option.eq_none_iff_forall_not_mem]
  intro n hn
  obtain ⟨front, b, back, rfl, hb, hname, -⟩ := h.slot hn
  simp [List.filter_append, hb, ha, List.nodup_append, hname] at distinct

theorem gateOf (h : Numbers slots left) {gate : Option Gate}
    (hg : Plan.gate slots a = .ok gate) : GateOf left a.guard gate := by
  rw [Plan.gate] at hg
  split at hg
  · next guard =>
    cases hg
    rw [guard]
    exact .none
  · next g guard =>
    split at hg
    · cases hg
    · next slot hslot =>
      split at hg
      · cases hg
      · next bit =>
        cases hg
        obtain ⟨front, b, back, hleft, hb, hname, rfl⟩ := h.slot hslot
        rw [guard]
        exact .some hleft hb hname (Nat.lt_of_not_le bit)

end Numbers

section

variable {s : Schema} {c : Codec}
  (points : ∀ name target, bareTarget s name = .ok target → c.Points s name target)

include points

theorem Laid.bareWithin {ty : Ty} {l : Layout} (h : Laid s ty l) : BareWithin s c ty l := by
  induction h with
  | bare h => exact points _ _ h
  | vector _ _ ih => exact ih
  | int | long | int128 | int256 | double | string | bytes | bool | boxed | generic => trivial

omit points in
theorem fieldAt_cons {left : List Argument} {a : Argument} {rest : List Argument} {f : FieldPlan}
    {fields : List FieldPlan} (head : FieldAt s c left a f)
    (tail : ∀ (i : Nat) (b : Argument) (g : FieldPlan), rest[i]? = some b → fields[i]? = some g →
      FieldAt s c (left ++ [a] ++ rest.take i) b g) (i : Nat) (b : Argument) (g : FieldPlan)
    (hb : (a :: rest)[i]? = some b) (hg : (f :: fields)[i]? = some g) :
    FieldAt s c (left ++ (a :: rest).take i) b g := by
  cases i with
  | zero =>
    cases hb
    cases hg
    rwa [List.take_zero, List.append_nil]
  | succ i =>
    rw [List.take_succ_cons, List.append_cons]
    exact tail i b g hb hg

/-- By induction on the arguments: the slots number the flags words to the left. -/
theorem Planned.fieldAt {total : Nat} {slots : Dict Nat} {left args : List Argument}
    {fields : List FieldPlan} (h : Planned s total slots args fields) (numbers : Numbers slots left)
    (distinct : (((left ++ args).filter (·.type = .flags)).map (·.name)).Nodup) :
    total = flagsIn (left ++ args) ∧ ∀ (i : Nat) (a : Argument) (f : FieldPlan),
      args[i]? = some a → fields[i]? = some f → FieldAt s c (left ++ args.take i) a f := by
  induction h generalizing left with
  | nil h => exact ⟨by rw [← h, numbers.length, List.append_nil], by simp⟩
  | @flags slots a rest fields ht _ ih =>
    have new := numbers.new ht distinct
    have next := numbers.flags ht new
    rw [List.append_cons] at distinct ⊢
    obtain ⟨total, tail⟩ := ih next distinct
    refine ⟨total, fieldAt_cons ⟨rfl, rfl, ?_⟩ tail⟩
    rw [Dict.length_insert_of_new new, Nat.add_sub_cancel, numbers.length]
    exact .flags ht
  | @presence slots a rest fields g ht hg _ ih =>
    have next := numbers.other (a := a) (by simp [ht])
    rw [List.append_cons] at distinct ⊢
    obtain ⟨total, tail⟩ := ih next distinct
    exact ⟨total, fieldAt_cons ⟨rfl, rfl, .presence ht (numbers.gateOf hg)⟩ tail⟩
  | @value slots a rest fields g l ht hl hg _ ih =>
    have next := numbers.other ht
    have laid := laid_of_layout hl
    rw [List.append_cons] at distinct ⊢
    obtain ⟨total, tail⟩ := ih next distinct
    exact ⟨total, fieldAt_cons
      ⟨rfl, rfl, .value laid (laid.bareWithin points) (numbers.gateOf hg)⟩ tail⟩

theorem resultOf {e : Entry} {result : Option Layout} (h : resultLayout s e = .ok result) :
    ResultOf s c e result := by
  rw [resultLayout] at h
  split at h
  · next kind =>
    cases h
    exact .constructor kind
  · next kind =>
    obtain ⟨l, hl, rfl⟩ := except_map_eq_ok.mp h
    have laid := laid_of_layout hl
    exact .method kind laid (laid.bareWithin points)

theorem OfEntry.wellFormed {e : Entry} {p : Plan} (h : OfEntry s e p)
    (distinct : ((e.arguments.filter (·.type = .flags)).map (·.name)).Nodup) :
    WellFormed s c e p := by
  obtain ⟨total, fields⟩ := h.fields.fieldAt points numbers_nil distinct
  exact ⟨h.id, h.name, h.kind, h.fields.forall₂.length_eq.symm, fields _ _ _, total,
    resultOf points h.result⟩

end

end Plan

namespace Codec

variable {s : Schema} {config : Config} {unpack : ByteArray → Option ByteArray} {c : Codec}

theorem points_of_bareTarget (hc : ofSchema s config unpack = .ok c) (name : String)
    (target : UInt32) (h : Plan.bareTarget s name = .ok target) : c.Points s name target := by
  obtain ⟨e, denotes, rfl⟩ := denotes_of_bareTarget h
  obtain ⟨k, hk⟩ := List.mem_iff_getElem?.mp denotes.mem
  have compiled := ofSchema_eq_ok hc
  obtain ⟨hlt, rfl⟩ := List.getElem?_eq_some_iff.mp hk
  have hlt' := compiled.plans.length_eq ▸ hlt
  have hp : Plan.OfEntry s s.entries[k] c.plans[k] := compiled.plans.get hlt hlt'
  refine ⟨k, _, c.plans[k], hk, denotes, rfl, List.getElem?_eq_getElem hlt', ?_, hp, ?_⟩
  · rw [← hp.id]
    exact plan?_id (by rw [compiled.ids]; exact Schema.ids_nodup _) (List.getElem_mem hlt')
  · rw [hp.kind]
    exact denotes.kind

theorem forall₂_wellFormed
    (distinct : ∀ e ∈ s.entries, ((e.arguments.filter (·.type = .flags)).map (·.name)).Nodup)
    (hc : ofSchema s config unpack = .ok c) :
    List.Forall₂ (Plan.WellFormed s c) s.entries c.plans := by
  have plans := (ofSchema_eq_ok hc).plans
  refine ((List.forall₂_and_left _ _).mpr ⟨distinct, plans⟩).imp fun e p ⟨distinct, hp⟩ => ?_
  exact hp.wellFormed (points_of_bareTarget hc) distinct

end Codec

end TypeLang
