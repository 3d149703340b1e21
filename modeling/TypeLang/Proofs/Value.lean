import TypeLang.Value.Basic

namespace TypeLang.Value

def children : Value → List Value
  | .vector items => items
  | .object _ fields => fields.map (·.2)
  | _ => []

theorem sizeOf_lt_of_mem_children {v w : Value} (h : w ∈ v.children) : sizeOf w < sizeOf v := by
  cases v with
  | vector items =>
    have : sizeOf w < sizeOf items := List.sizeOf_lt_of_mem h
    simp only [vector.sizeOf_spec]
    omega
  | object name fields =>
    obtain ⟨⟨key, w⟩, hw, rfl⟩ := List.mem_map.mp h
    have := List.sizeOf_lt_of_mem hw
    simp only [Prod.mk.sizeOf_spec] at this
    simp only [object.sizeOf_spec]
    omega
  | int | long | int128 | int256 | double | string | bytes | bool | raw => cases h

theorem forall_of_children {P : Value → Prop} (h : ∀ v, (∀ w ∈ v.children, P w) → P v) (v : Value) :
    P v :=
  h v fun w _ => forall_of_children h w
termination_by sizeOf v
decreasing_by exact sizeOf_lt_of_mem_children ‹_›

/-- Ways down from a value: each value on the way is directly inside the one before it. -/
inductive Path : Value → List Value → Prop
  | here (v : Value) : Path v [v]
  | down {v w : Value} {path : List Value} : w ∈ v.children → Path w path → Path v (v :: path)

def isLayer : Value → Bool
  | .vector _ | .object _ _ => true
  | _ => false

def layers (path : List Value) : Nat := path.countP (·.isLayer)

/-- Whether no path down from the value goes through more than `n` layers. -/
def NoDeeper (n : Nat) (v : Value) : Prop := ∀ path, Path v path → layers path ≤ n

theorem NoDeeper.mono {n m : Nat} {v : Value} (h : NoDeeper n v) (hn : n ≤ m) : NoDeeper m v :=
  fun path hp => Nat.le_trans (h path hp) hn

theorem noDeeper_of_children {n : Nat} {v : Value} (h : ∀ w ∈ v.children, NoDeeper n w) :
    NoDeeper (n + 1) v := by
  intro path hp
  cases hp with
  | here =>
    have : layers [v] ≤ 1 := List.countP_le_length
    omega
  | @down _ w path hw hp =>
    have := h w hw path hp
    rw [layers, List.countP_cons, ← layers]
    split
    · omega
    · omega

theorem noDeeper_of_leaf {v : Value} (h : v.isLayer = false) (n : Nat) : NoDeeper n v := by
  have childless : v.children = [] := by
    cases v with
    | vector | object => cases h
    | _ => rfl
  intro path hp
  cases hp with
  | here => simp [layers, h]
  | down hw => simp [childless] at hw

end TypeLang.Value
