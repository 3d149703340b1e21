import Mathlib.Logic.Relation
import TypeLang.Proofs.Codec.InStep
import TypeLang.Proofs.Codec.Width

/-!
What a value becomes when it is written and read again. Keys that are not declared are lost, a
string in a place for bytes comes back as bytes, and a field without bytes comes back as its bit,
or as true if it hangs on none.
-/

namespace TypeLang

namespace Codec

structure Sound (c : Codec) : Prop where
  ids : (c.plans.map (·.id)).Nodup
  names : (c.plans.map (·.name)).Nodup
  slotted : ∀ p ∈ c.plans, Slotted p.flagsWords 0 p.fields
  fieldNames : ∀ p ∈ c.plans, (p.fields.map (·.name)).Nodup
  bounded : c.Bounded c.widths

theorem sound_ofSchema {s : Schema} {config : Config} {unpack : ByteArray → Option ByteArray}
    {c : Codec}
    (kinds : ∀ e ∈ s.entries, ∀ f ∈ s.entries, e.name = f.name → e.kind = f.kind)
    (arguments : ∀ e ∈ s.entries, (e.arguments.map (·.name)).Nodup)
    (hc : ofSchema s config unpack = .ok c) : c.Sound where
  ids := by
    rw [(ofSchema_eq_ok hc).ids]
    exact Schema.ids_nodup _
  names := by
    rw [(ofSchema_eq_ok hc).names]
    exact Schema.names_nodup kinds
  slotted p hp := by
    apply (ofSchema_eq_ok hc).slotted _ hp
    intro e he
    exact (arguments e he).sublist (List.filter_sublist.map _)
  fieldNames p hp := (ofSchema_eq_ok hc).fieldNames arguments hp
  bounded := bounded_widths hc

structure Normal where
  value : Value
  norm : Layout → Value

end Codec

def FieldPlan.norm? (given : Dict Codec.Normal) (f : FieldPlan) : Option Value :=
  match f.role with
  | .flags _ => none
  | .presence none => some (.bool true)
  | .presence (some _) => some (.bool (f.isOn fun name => (given.get? name).map (·.value)))
  | .value layout _ => (given.get? f.name).map (·.norm layout)

def Plan.norm (p : Plan) (given : Dict Codec.Normal) : Fields :=
  Dict.ofList (p.fields.filterMap fun f => (f.norm? given).map (f.name, ·))

namespace Codec

mutual
/-- What a value becomes when it is written in a layout and read again. -/
def norm (c : Codec) : Value → Layout → Value
  | .string s, .bytes => .bytes s.toUTF8
  | .vector items, .vector elem _ => .vector (normItems c items elem)
  | .object name fields, _ =>
    match c.plan? (.name name) with
    | some p => .object name (p.norm (normals c fields))
    | none => .object name fields
  | v, _ => v
def normItems (c : Codec) : List Value → Layout → List Value
  | [], _ => []
  | v :: rest, layout => norm c v layout :: normItems c rest layout
def normals (c : Codec) : List (String × Value) → List (String × Normal)
  | [] => []
  | (name, v) :: rest => (name, ⟨v, norm c v⟩) :: normals c rest
end

theorem normals_eq (c : Codec) (fields : Fields) :
    c.normals fields = fields.map fun kv => (kv.1, ⟨kv.2, c.norm kv.2⟩) := by
  induction fields with
  | nil => rfl
  | cons kv rest ih => rw [normals, ih, List.map_cons]

theorem get?_normals (c : Codec) (fields : Fields) (key : String) :
    Dict.get? (c.normals fields) key = (Dict.get? fields key).map fun v => ⟨v, c.norm v⟩ := by
  rw [normals_eq]
  exact Dict.get?_map (fun v => Normal.mk v (c.norm v)) fields key

theorem get?_normals_value (c : Codec) (fields : Fields) :
    (fun name => (Dict.get? (c.normals fields) name).map (·.value)) = Dict.get? fields := by
  funext name
  simp [get?_normals, Function.comp_def]

theorem normItems_eq (c : Codec) (items : List Value) (layout : Layout) :
    c.normItems items layout = items.map (c.norm · layout) := by
  induction items with
  | nil => rfl
  | cons v rest ih => rw [normItems, ih, List.map_cons]

abbrev Place := Value × Layout

/-- The places directly inside a place. A place for any object is one around that of the object. -/
def inner (c : Codec) : Place → List Place
  | (.vector items, .vector elem _) => items.map (·, elem)
  | (.object name fields, .generic) => [(.object name fields, .boxed none)]
  | (.object name fields, _) =>
    match c.plan? (.name name) with
    | some p => p.fields.filterMap fun f =>
      match f.role with
      | .value layout _ => (Dict.get? fields f.name).map (·, layout)
      | _ => none
    | none => []
  | _ => []

def Inside (c : Codec) : Place → Place → Prop := Relation.ReflTransGen fun x y => y ∈ c.inner x

theorem forall_inside {c : Codec} {x : Place} {P : Place → Prop} :
    (∀ y, c.Inside x y → P y) ↔ P x ∧ ∀ y ∈ c.inner x, ∀ z, c.Inside y z → P z := by
  constructor
  · intro h
    exact ⟨h x .refl, fun y hy z hz => h z (.head hy hz)⟩
  · rintro ⟨hx, h⟩ y hy
    rcases Relation.ReflTransGen.cases_head hy with rfl | ⟨z, hz, hy⟩
    · exact hx
    · exact h z hz y hy

/-- Whether places are nested in a place at most so deep, itself included. -/
def Nests (c : Codec) : Nat → Place → Prop
  | 0, _ => False
  | n + 1, x => ∀ y ∈ c.inner x, Nests c n y

def decidableNests (c : Codec) : (n : Nat) → (x : Place) → Decidable (c.Nests n x)
  | 0, _ => instDecidableFalse
  | n + 1, x =>
    have := decidableNests c n
    inferInstanceAs (Decidable (∀ y ∈ c.inner x, c.Nests n y))

instance (c : Codec) (n : Nat) (x : Place) : Decidable (c.Nests n x) := c.decidableNests n x

theorem Nests.mono {c : Codec} {n : Nat} {x : Place} (h : c.Nests n x) : c.Nests (n + 1) x := by
  induction n generalizing x with
  | zero => exact h.elim
  | succ n ih => exact fun y hy => ih (h y hy)

theorem mem_inner_vector {c : Codec} {items : List Value} {v : Value} (h : v ∈ items)
    (elem : Layout) (isBoxed : Bool) :
    (v, elem) ∈ c.inner (.vector items, .vector elem isBoxed) :=
  List.mem_map_of_mem h

theorem inner_object (c : Codec) {name : String} {outer : Layout} {p : Plan}
    (ho : outer ≠ .generic) (hp : c.plan? (.name name) = some p) (fields : Fields) :
    c.inner (.object name fields, outer) = p.fields.filterMap fun f =>
      match f.role with
      | .value layout _ => (Dict.get? fields f.name).map (·, layout)
      | _ => none := by
  unfold inner
  split
  · next h => cases h
  · next h =>
    cases h
    exact absurd rfl ho
  · next h =>
    cases h
    rw [hp]
  · next h => exact absurd rfl (h _ _ _)

theorem mem_inner_object {c : Codec} {name : String} {fields : Fields} {outer layout : Layout}
    {p : Plan} {f : FieldPlan} {gate : Option Gate} {v : Value} (ho : outer ≠ .generic)
    (hp : c.plan? (.name name) = some p) (hf : f ∈ p.fields) (hr : f.role = .value layout gate)
    (hv : Dict.get? fields f.name = some v) :
    (v, layout) ∈ c.inner (.object name fields, outer) := by
  rw [inner_object c ho hp, List.mem_filterMap]
  exact ⟨f, hf, by rw [hr, hv]; rfl⟩

end Codec

/-- Whether fields that hang on one bit are all on or all off. -/
def Plan.Balanced (p : Plan) (given : String → Option Value) : Prop :=
  ∀ f ∈ p.fields, ∀ f' ∈ p.fields, ∀ g ∈ f.gate?, f'.gate? = some g →
    f.isOn given = f'.isOn given

instance (p : Plan) (given : String → Option Value) : Decidable (p.Balanced given) :=
  inferInstanceAs (Decidable (∀ f ∈ p.fields, ∀ f' ∈ p.fields, ∀ g ∈ f.gate?,
    f'.gate? = some g → f.isOn given = f'.isOn given))

theorem Plan.Balanced.inStep {p : Plan} {given : String → Option Value} (h : p.Balanced given) :
    p.InStep given := by
  intro f hf on f' hf' layout g hg hr
  rw [← h f hf f' hf' g hg (by rw [FieldPlan.gate?, hr])]
  exact on

theorem Plan.Balanced.back?_eq {p : Plan} {given : Dict Codec.Normal}
    (h : p.Balanced fun name => (given.get? name).map (·.value))
    (slots : Slotted p.flagsWords 0 p.fields) {f : FieldPlan} (hf : f ∈ p.fields) :
    f.back? (p.words fun name => (given.get? name).map (·.value)) (FieldPlan.norm? given) =
      f.norm? given := by
  rw [FieldPlan.back?]
  split
  · next hr => rw [FieldPlan.norm?, hr]
  · next gate hr =>
    rw [FieldPlan.norm?, hr]
    cases gate with
    | none => rfl
    | some g =>
      have hg : f.gate? = some g := by rw [FieldPlan.gate?, hr]
      have : g.isOpen (p.words fun name => (given.get? name).map (·.value)) =
          f.isOn fun name => (given.get? name).map (·.value) := by
        rw [Bool.eq_iff_iff, p.isOpen_words slots]
        constructor
        · rintro ⟨f', hf', hg', on⟩
          rw [h f hf f' hf' g hg hg']
          exact on
        · intro on
          exact ⟨f, hf, hg, on⟩
      rw [Option.all_some, this]
  · rfl

namespace Codec

/-- Whether the value of a place is read as it was written: it is no bytes that stand for an object,
as a vector it is one that a reader accepts, and as an object it has its fields in balance. -/
def Regular (c : Codec) : Place → Prop
  | (.raw _, _) => False
  | (.vector items, .vector elem _) =>
    items.length < UInt32.size ∧
      (elem.width c.widths = 0 → items.length ≤ c.config.maxZeroWidthItems)
  | (.object name fields, _) =>
    ∀ p, c.plan? (.name name) = some p → p.Balanced (Dict.get? fields)
  | _ => True

/-- Whether the id of an object is read as that of the object, and not of something built in. -/
def Told (c : Codec) : Place → Prop
  | (.object name _, .boxed _) => ∀ p, c.plan? (.name name) = some p → c.isPacked p.id = false
  | (.object name _, .generic) => ∀ p, c.plan? (.name name) = some p →
    p.id ≠ Id.vector ∧ p.id ≠ Id.boolTrue ∧ p.id ≠ Id.boolFalse
  | _ => True

end Codec

end TypeLang
