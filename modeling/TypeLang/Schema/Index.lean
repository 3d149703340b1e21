namespace TypeLang

universe u v

abbrev Index (κ : Type u) := List (κ × Nat)

namespace Index

variable {κ : Type u} {α : Type v} [DecidableEq κ]

def get? (m : Index κ) (k : κ) : Option Nat := m.lookup k

def insert (k : κ) (i : Nat) (m : Index κ) : Index κ := (k, i) :: m

@[simp] theorem get?_nil (k : κ) : get? ([] : Index κ) k = none := rfl

@[simp] theorem get?_insert_self (k : κ) (i : Nat) (m : Index κ) :
    (m.insert k i).get? k = some i := by
  simp [get?, insert]

theorem get?_insert_of_ne {k other : κ} (h : other ≠ k) (i : Nat) (m : Index κ) :
    (m.insert k i).get? other = m.get? other := by
  have hb : (other == k) = false := by simpa using h
  simp [get?, insert, List.lookup_cons, hb]

/-- An index finds what has a key if it leads to the places of the members that have it, and to no
others. Members without a key are not found. -/
def Finds (m : Index κ) (l : List α) (key : α → Option κ) : Prop :=
  ∀ k i, m.get? k = some i ↔ ∃ a, l[i]? = some a ∧ key a = some k

namespace Finds

variable {m : Index κ} {l : List α} {key : α → Option κ} {k : κ} {a : α}

theorem nil (key : α → Option κ) : Finds [] [] key := by
  intro k i
  simp

theorem get?_eq_none_iff (h : m.Finds l key) : m.get? k = none ↔ ∀ a ∈ l, key a ≠ some k := by
  constructor
  · intro none a ha hk
    obtain ⟨i, hi⟩ := List.mem_iff_getElem?.mp ha
    rw [(h k i).mpr ⟨a, hi, hk⟩] at none
    cases none
  · intro new
    cases hi : m.get? k with
    | none => rfl
    | some i =>
      obtain ⟨a, ha, hk⟩ := (h k i).mp hi
      exact absurd hk (new a (List.mem_of_getElem? ha))

theorem bind_eq_some_iff (h : m.Finds l key) :
    (m.get? k).bind (l[·]?) = some a ↔ a ∈ l ∧ key a = some k := by
  rw [Option.bind_eq_some_iff]
  constructor
  · rintro ⟨i, hi, ha⟩
    obtain ⟨b, hb, hk⟩ := (h k i).mp hi
    cases ha.symm.trans hb
    exact ⟨List.mem_of_getElem? ha, hk⟩
  · rintro ⟨ha, hk⟩
    obtain ⟨i, hi⟩ := List.mem_iff_getElem?.mp ha
    exact ⟨i, (h k i).mpr ⟨a, hi, hk⟩, hi⟩

theorem place_unique (h : m.Finds l key) {i j : Nat} {b : α} (ha : l[i]? = some a)
    (hb : l[j]? = some b) (hk : key a = some k) (hk' : key b = some k) : i = j := by
  have hi := (h k i).mpr ⟨a, ha, hk⟩
  have hj := (h k j).mpr ⟨b, hb, hk'⟩
  exact Option.some.inj (hi.symm.trans hj)

omit [DecidableEq κ] in
theorem getElem?_append_of_ne (ha : key a ≠ some k) (l : List α) (i : Nat) {b : α}
    (hb : key b = some k) : (l ++ [a])[i]? = some b ↔ l[i]? = some b := by
  rw [List.getElem?_append]
  split
  · rfl
  · next hi =>
    rw [List.getElem?_eq_none (Nat.le_of_not_lt hi)]
    refine iff_of_false (fun h => ha ?_) nofun
    rwa [← List.mem_singleton.mp (List.mem_of_getElem? h)]

theorem append_keyless (h : m.Finds l key) (ha : key a = none) : m.Finds (l ++ [a]) key := by
  intro k i
  rw [h k i]
  refine exists_congr fun b => and_congr_left fun hb => ?_
  exact (getElem?_append_of_ne (by simp [ha]) l i hb).symm

theorem append (h : m.Finds l key) (ha : key a = some k) (new : m.get? k = none) :
    (m.insert k l.length).Finds (l ++ [a]) key := by
  intro other i
  by_cases hk : other = k
  · subst hk
    rw [get?_insert_self]
    constructor
    · rintro ⟨⟩
      exact ⟨a, List.getElem?_concat_length, ha⟩
    · rintro ⟨b, hb, hkb⟩
      rw [List.getElem?_append] at hb
      split at hb
      · exact absurd hkb (h.get?_eq_none_iff.mp new b (List.mem_of_getElem? hb))
      · next hi =>
        have last := (List.getElem?_eq_some_iff.mp hb).1
        rw [List.length_singleton] at last
        rw [show i = l.length by omega]
  · rw [get?_insert_of_ne hk, h other i]
    refine exists_congr fun b => and_congr_left fun hb => ?_
    exact (getElem?_append_of_ne (by simpa [ha, eq_comm] using hk) l i hb).symm

theorem of_map_eq (h : m.Finds l key) {l' : List α} (same : l'.map key = l.map key) :
    m.Finds l' key := by
  have at_place (l : List α) (k : κ) (i : Nat) :
      (∃ a, l[i]? = some a ∧ key a = some k) ↔ (l.map key)[i]? = some (some k) := by
    rw [List.getElem?_map, Option.map_eq_some_iff]
  intro k i
  rw [h k i, at_place, at_place, same]

end Finds

end Index

end TypeLang
