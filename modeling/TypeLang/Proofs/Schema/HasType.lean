import Mathlib.Algebra.Group.Nat.Defs
import TypeLang.Proofs.Schema.Unions
import TypeLang.Value.Basic

namespace TypeLang

namespace Schema

/-- The constructor that a bare name stands for: the one of this name or else, if there is none, the
only member of the union of this name. -/
inductive Denotes (s : Schema) (name : String) : Entry → Prop
  | named {e : Entry} : e ∈ s.entries → e.kind = .constructor → e.name = name → Denotes s name e
  | alone {e : Entry} {u : Union} : (∀ f ∈ s.entries, f.kind = .constructor → f.name ≠ name) →
      u ∈ s.unions → u.name = name → u.members = [e.name] → e ∈ s.entries →
      e.kind = .constructor → Denotes s name e

theorem Denotes.mem {s : Schema} {name : String} {e : Entry} (h : s.Denotes name e) :
    e ∈ s.entries := by
  cases h with
  | named he => exact he
  | alone _ _ _ _ he => exact he

theorem Denotes.kind {s : Schema} {name : String} {e : Entry} (h : s.Denotes name e) :
    e.kind = .constructor := by
  cases h with
  | named _ hk => exact hk
  | alone _ _ _ _ _ hk => exact hk

theorem Denotes.unique {s : Schema}
    (kinds : ∀ e ∈ s.entries, ∀ f ∈ s.entries, e.name = f.name → e.kind = f.kind) {name : String}
    {e f : Entry} (he : s.Denotes name e) (hf : s.Denotes name f) : e = f := by
  have byName := List.inj_on_of_nodup_map (names_nodup kinds)
  cases he with
  | named he hek hen =>
    cases hf with
    | named hf _ hfn => exact byName he hf (hen.trans hfn.symm)
    | alone none => exact absurd hen (none e he hek)
  | alone none hu hun members he =>
    cases hf with
    | named hf hfk hfn => exact absurd hfn (none f hf hfk)
    | alone _ hv hvn members' hf =>
      rw [union_unique hu hv (hun.trans hvn.symm), members'] at members
      exact byName he hf (List.singleton_inj.mp members).symm

/-- Whether an object of the entry may stand for a boxed name: if this is the name of a union, only
one of its members may. -/
def Admits (s : Schema) (name : String) (e : Entry) : Prop :=
  e ∈ s.entries ∧ ∀ u ∈ s.unions, u.name = name → e.kind = .constructor ∧ e.name ∈ u.members

end Schema

mutual

/-- The values of a type. Nothing but an argument can be a flags word or a mere presence, so that
these have no values. -/
inductive HasType (s : Schema) : Value → Ty → Prop
  | int (n : Int32) : HasType s (.int n) .int
  | long (n : Int64) : HasType s (.long n) .long
  | int128 (b : Block 16) : HasType s (.int128 b) .int128
  | int256 (b : Block 32) : HasType s (.int256 b) .int256
  | double (d : Double) : HasType s (.double d) .double
  | string {t : String} : t.utf8ByteSize < 2 ^ 24 → HasType s (.string t) .string
  | text {t : String} : t.utf8ByteSize < 2 ^ 24 → HasType s (.string t) .bytes
  | bytes {b : ByteArray} : b.size < 2 ^ 24 → HasType s (.bytes b) .bytes
  | bool (b : Bool) : HasType s (.bool b) .bool
  | vector {items : List Value} {elem : Ty} {isBoxed : Bool} :
      (∀ v ∈ items, HasType s v elem) → HasType s (.vector items) (.vector elem isBoxed)
  | bare {name : String} {e : Entry} {fields : Fields} :
      s.Denotes name e → Conforms s e fields → HasType s (.object e.name fields) (.named name true)
  | boxed {name : String} {e : Entry} {fields : Fields} :
      s.Admits name e → Conforms s e fields → HasType s (.object e.name fields) (.named name false)
  | generic {name : String} {e : Entry} {fields : Fields} :
      e ∈ s.entries → Conforms s e fields → HasType s (.object e.name fields) (.generic name)
  | raw {name : String} (b : ByteArray) : HasType s (.raw b) (.generic name)

inductive Fills (s : Schema) : Argument → Option Value → Prop
  /-- A flags word follows from the other arguments, whatever is given for it. -/
  | flags {a : Argument} (given : Option Value) : a.type = .flags → Fills s a given
  | presence {a : Argument} (b : Bool) : a.type = .presence → Fills s a (some (.bool b))
  | absent {a : Argument} : a.type = .presence ∨ a.guard.isSome → Fills s a none
  | value {a : Argument} {v : Value} : HasType s v a.type → Fills s a (some v)

/-- Whether fields can be those of an object of an entry. A key that is no argument does not
matter. -/
inductive Conforms (s : Schema) : Entry → Fields → Prop
  | intro {e : Entry} {fields : Fields} :
      (∀ a ∈ e.arguments, Fills s a (Dict.get? fields a.name)) → Conforms s e fields

end

theorem conforms_iff {s : Schema} {e : Entry} {fields : Fields} :
    Conforms s e fields ↔ ∀ a ∈ e.arguments, Fills s a (Dict.get? fields a.name) :=
  ⟨fun ⟨h⟩ => h, .intro⟩

end TypeLang
