import TypeLang.Codec.Basic
import TypeLang.Proofs.Codec.Gate
import TypeLang.Proofs.Dict
import TypeLang.Proofs.Except
import TypeLang.Proofs.Schema.Distinct

namespace TypeLang

/-- Behind `n` flags words, the flags words have the slots from `n` on up to `total`, and each gate
is a bit of a word to the left. -/
inductive Slotted (total : Nat) : Nat → List FieldPlan → Prop
  | nil : Slotted total total []
  | flags {n : Nat} {f : FieldPlan} {rest : List FieldPlan} :
      f.role = .flags n → Slotted total (n + 1) rest → Slotted total n (f :: rest)
  | presence {n : Nat} {f : FieldPlan} {rest : List FieldPlan} {gate : Option Gate} :
      f.role = .presence gate → (∀ g ∈ gate, g.slot < n ∧ g.bit < 32) → Slotted total n rest →
      Slotted total n (f :: rest)
  | value {n : Nat} {f : FieldPlan} {rest : List FieldPlan} {layout : Layout}
      {gate : Option Gate} :
      f.role = .value layout gate → (∀ g ∈ gate, g.slot < n ∧ g.bit < 32) →
      Slotted total n rest → Slotted total n (f :: rest)

theorem Slotted.le {total n : Nat} {fields : List FieldPlan} (h : Slotted total n fields) :
    n ≤ total := by
  induction h with
  | nil => exact Nat.le_refl _
  | flags _ _ ih => omega
  | presence _ _ _ ih => exact ih
  | value _ _ _ ih => exact ih

namespace Plan

/-- How arguments behind flags words with the given slots are planned, argument by argument. -/
inductive Planned (s : Schema) (total : Nat) : Dict Nat → List Argument → List FieldPlan → Prop
  | nil {slots : Dict Nat} : slots.length = total → Planned s total slots [] []
  | flags {slots : Dict Nat} {a : Argument} {rest : List Argument} {fields : List FieldPlan} :
      a.type = .flags → Planned s total (Dict.insert a.name slots.length slots) rest fields →
      Planned s total slots (a :: rest)
        (⟨a.name, a.type, .flags ((Dict.insert a.name slots.length slots).length - 1)⟩ :: fields)
  | presence {slots : Dict Nat} {a : Argument} {rest : List Argument} {fields : List FieldPlan}
      {g : Option Gate} :
      a.type = .presence → gate slots a = .ok g → Planned s total slots rest fields →
      Planned s total slots (a :: rest) (⟨a.name, a.type, .presence g⟩ :: fields)
  | value {slots : Dict Nat} {a : Argument} {rest : List Argument} {fields : List FieldPlan}
      {g : Option Gate} {l : Layout} :
      a.type ≠ .flags → layout s a.type = .ok l → gate slots a = .ok g →
      Planned s total slots rest fields →
      Planned s total slots (a :: rest) (⟨a.name, a.type, .value l g⟩ :: fields)

theorem planned_of_fieldPlans {s : Schema} {args : List Argument} {slots : Dict Nat}
    {fields : List FieldPlan} {total : Nat}
    (h : fieldPlans s slots args = .ok (fields, total)) : Planned s total slots args fields := by
  induction args generalizing slots fields total with
  | nil =>
    cases h
    exact .nil rfl
  | cons a rest ih =>
    rw [fieldPlans] at h
    obtain ⟨g, hg, h⟩ := except_bind_eq_ok.mp h
    dsimp only at h
    split at h
    · next ht =>
      split at h
      · cases h
      · obtain ⟨⟨role, slots'⟩, hr, h⟩ := except_bind_eq_ok.mp h
        obtain ⟨⟨fields', total'⟩, hf, h⟩ := except_bind_eq_ok.mp h
        cases hr
        cases h
        exact .flags ht (ih hf)
    · next ht =>
      obtain ⟨⟨role, slots'⟩, hr, h⟩ := except_bind_eq_ok.mp h
      obtain ⟨⟨fields', total'⟩, hf, h⟩ := except_bind_eq_ok.mp h
      cases hr
      cases h
      exact .presence ht hg (ih hf)
    · next hn _ =>
      obtain ⟨l, hl, h⟩ := except_bind_eq_ok.mp h
      obtain ⟨⟨role, slots'⟩, hr, h⟩ := except_bind_eq_ok.mp h
      obtain ⟨⟨fields', total'⟩, hf, h⟩ := except_bind_eq_ok.mp h
      cases hr
      cases h
      exact .value hn hl hg (ih hf)

theorem Planned.names {s : Schema} {total : Nat} {slots : Dict Nat} {args : List Argument}
    {fields : List FieldPlan} (h : Planned s total slots args fields) :
    fields.map (·.name) = args.map (·.name) := by
  induction h with
  | nil => rfl
  | flags _ _ ih => rw [List.map_cons, List.map_cons, ih]
  | presence _ _ _ ih => rw [List.map_cons, List.map_cons, ih]
  | value _ _ _ _ ih => rw [List.map_cons, List.map_cons, ih]

theorem gate_eq_ok {slots : Dict Nat} {a : Argument} {gate : Option Gate}
    (h : Plan.gate slots a = .ok gate)
    (below : ∀ {name slot}, slots.get? name = some slot → slot < slots.length) :
    ∀ g ∈ gate, g.slot < slots.length ∧ g.bit < 32 := by
  intro g hg
  rw [Plan.gate] at h
  split at h
  · cases h
    cases hg
  · split at h
    · cases h
    · next slot hs =>
      split at h
      · cases h
      · next hb =>
        cases h
        cases hg
        exact ⟨below hs, Nat.lt_of_not_le hb⟩

theorem Planned.slotted {s : Schema} {total : Nat} {slots : Dict Nat} {args : List Argument}
    {fields : List FieldPlan} (h : Planned s total slots args fields)
    (distinct : ((args.filter (·.type = .flags)).map (·.name)).Nodup)
    (new : ∀ a ∈ args, a.type = .flags → slots.get? a.name = none)
    (below : ∀ {name slot}, slots.get? name = some slot → slot < slots.length) :
    Slotted total slots.length fields := by
  induction h with
  | nil h => exact h ▸ .nil
  | @flags slots a rest fields ht _ ih =>
    rw [List.filter_cons_of_pos (by simpa using ht), List.map_cons, List.nodup_cons] at distinct
    have hl := Dict.length_insert_of_new (new a List.mem_cons_self ht) slots.length
    have hs := ih distinct.2 ?_ ?_
    · rw [hl] at hs
      exact .flags (by rw [hl, Nat.add_sub_cancel]) hs
    · intro b hb hbt
      have hne : b.name ≠ a.name := by
        intro he
        apply distinct.1
        rw [← he]
        exact List.mem_map_of_mem (List.mem_filter.mpr ⟨hb, by simpa using hbt⟩)
      rw [Dict.get?_insert_of_ne hne]
      exact new b (List.mem_cons_of_mem a hb) hbt
    · intro name slot hslot
      rw [hl]
      by_cases hn : name = a.name
      · rw [hn, Dict.get?_insert_self] at hslot
        cases hslot
        omega
      · rw [Dict.get?_insert_of_ne hn] at hslot
        have := below hslot
        omega
  | @presence slots a rest fields g ht hg _ ih =>
    rw [List.filter_cons_of_neg (by simp [ht])] at distinct
    exact .presence rfl (gate_eq_ok hg below)
      (ih distinct (fun b hb => new b (List.mem_cons_of_mem a hb)) below)
  | @value slots a rest fields g l ht _ hg _ ih =>
    rw [List.filter_cons_of_neg (by simp [ht])] at distinct
    exact .value rfl (gate_eq_ok hg below)
      (ih distinct (fun b hb => new b (List.mem_cons_of_mem a hb)) below)

structure OfEntry (s : Schema) (e : Entry) (p : Plan) : Prop where
  id : p.id = e.id
  name : p.name = e.name
  kind : p.kind = e.kind
  union : p.union = e.unionName?
  fields : Planned s p.flagsWords [] e.arguments p.fields
  result : resultLayout s e = .ok p.result

theorem ofEntry_eq_ok {s : Schema} {e : Entry} {p : Plan} (h : ofEntry s e = .ok p) :
    OfEntry s e p := by
  rw [ofEntry] at h
  cases hf : fieldPlans s [] e.arguments with
  | error reason =>
    rw [hf] at h
    cases h
  | ok r =>
    cases hr : resultLayout s e with
    | error reason =>
      rw [hf, hr] at h
      cases h
    | ok result =>
      rw [hf, hr] at h
      cases h
      exact ⟨rfl, rfl, rfl, rfl, planned_of_fieldPlans hf, hr⟩

end Plan

namespace Codec

structure OfSchema (s : Schema) (config : Config) (unpack : ByteArray → Option ByteArray)
    (c : Codec) : Prop where
  config : c.config = config
  unpack : c.unpack = unpack
  plans : List.Forall₂ (Plan.OfEntry s) s.entries c.plans
  widths : c.widths = Widths.ofPlans c.plans

theorem ofSchema_eq_ok {s : Schema} {config : Config} {unpack : ByteArray → Option ByteArray}
    {c : Codec} (h : ofSchema s config unpack = .ok c) : OfSchema s config unpack c := by
  rw [ofSchema] at h
  obtain ⟨plans, hp, h⟩ := except_bind_eq_ok.mp h
  cases h
  exact ⟨rfl, rfl, (forall₂_of_mapM hp).imp fun _ _ => Plan.ofEntry_eq_ok, rfl⟩

section

variable {s : Schema} {config : Config} {unpack : ByteArray → Option ByteArray} {c : Codec}

theorem OfSchema.ids (h : OfSchema s config unpack c) :
    c.plans.map (·.id) = s.entries.map (·.id) := by
  rw [← List.forall₂_eq_eq_eq]
  exact List.rel_map (fun _ _ hp => hp.id) h.plans.flip

theorem OfSchema.names (h : OfSchema s config unpack c) :
    c.plans.map (·.name) = s.entries.map (·.name) := by
  rw [← List.forall₂_eq_eq_eq]
  exact List.rel_map (fun _ _ hp => hp.name) h.plans.flip

theorem OfSchema.entry (h : OfSchema s config unpack c) {p : Plan} (hp : p ∈ c.plans) :
    ∃ e ∈ s.entries, Plan.OfEntry s e p := exists_left_of_forall₂ h.plans hp

theorem OfSchema.slotted (h : OfSchema s config unpack c)
    (flags : ∀ e ∈ s.entries, ((e.arguments.filter (·.type = .flags)).map (·.name)).Nodup)
    {p : Plan} (hp : p ∈ c.plans) : Slotted p.flagsWords 0 p.fields := by
  obtain ⟨e, he, hep⟩ := h.entry hp
  apply hep.fields.slotted (flags e he)
  · intro a _ _
    rfl
  · intro name slot hs
    cases hs

theorem OfSchema.fieldNames (h : OfSchema s config unpack c)
    (args : ∀ e ∈ s.entries, (e.arguments.map (·.name)).Nodup) {p : Plan} (hp : p ∈ c.plans) :
    (p.fields.map (·.name)).Nodup := by
  obtain ⟨e, he, hep⟩ := h.entry hp
  rw [hep.fields.names]
  exact args e he

end

theorem plan?_id {c : Codec} (ids : (c.plans.map (·.id)).Nodup) {p : Plan} (hp : p ∈ c.plans) :
    c.plan? (.id p.id) = some p := find?_eq_some_of_nodup ids hp

theorem plan?_name {c : Codec} (names : (c.plans.map (·.name)).Nodup) {p : Plan}
    (hp : p ∈ c.plans) : c.plan? (.name p.name) = some p := find?_eq_some_of_nodup names hp

theorem mem_of_plan? {c : Codec} {key : Key} {p : Plan} (h : c.plan? key = some p) :
    p ∈ c.plans := by
  cases key with
  | name n => exact List.mem_of_find?_eq_some h
  | id n => exact List.mem_of_find?_eq_some h

theorem id_of_plan? {c : Codec} {id : UInt32} {p : Plan} (h : c.plan? (.id id) = some p) :
    p.id = id := by
  simpa using List.find?_some h

theorem name_of_plan? {c : Codec} {name : String} {p : Plan}
    (h : c.plan? (.name name) = some p) : p.name = name := by
  simpa using List.find?_some h

theorem exists_plan?_id {s : Schema} {config : Config} {unpack : ByteArray → Option ByteArray}
    {c : Codec} (hc : ofSchema s config unpack = .ok c) {e : Entry} (he : e ∈ s.entries) :
    ∃ p, c.plan? (.id e.id) = some p ∧ Plan.OfEntry s e p := by
  have compiled := ofSchema_eq_ok hc
  obtain ⟨p, hm, hp⟩ := exists_left_of_forall₂ compiled.plans.flip he
  refine ⟨p, ?_, hp⟩
  rw [← hp.id]
  exact plan?_id (by rw [compiled.ids]; exact Schema.ids_nodup _) hm

/-- `point#1 flags:# x:flags.0?int y:flags.0?int seen:flags.1?true tags:Vector<bytes> = Point` -/
def point : Entry where
  kind := .constructor
  name := "point"
  id := 1
  type := .named "Point" false
  generics := []
  arguments := [⟨"flags", .flags, none⟩, ⟨"x", .int, some ⟨"flags", 0⟩⟩,
    ⟨"y", .int, some ⟨"flags", 0⟩⟩, ⟨"seen", .presence, some ⟨"flags", 1⟩⟩,
    ⟨"tags", .vector .bytes true, none⟩]
  comment := none

def pointPlan : Plan where
  id := 1
  name := "point"
  kind := .constructor
  union := some "Point"
  fields := [⟨"flags", .flags, .flags 0⟩, ⟨"x", .int, .value .int (some ⟨0, 0⟩)⟩,
    ⟨"y", .int, .value .int (some ⟨0, 0⟩)⟩, ⟨"seen", .presence, .presence (some ⟨0, 1⟩)⟩,
    ⟨"tags", .vector .bytes true, .value (.vector .bytes true) none⟩]
  flagsWords := 1
  result := none

def pointSchema : Schema := .of [point] [] rfl

def pointCodec : Codec := ⟨{}, Deflate.unpack, [pointPlan], [(1, 12)]⟩

theorem ofSchema_point : ofSchema pointSchema {} = .ok pointCodec := rfl

end Codec

end TypeLang
