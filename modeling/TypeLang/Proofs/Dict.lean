import Mathlib.Data.List.Sort
import Mathlib.Data.String.Basic
import TypeLang.Dict

namespace TypeLang.Dict

variable {α β : Type}

theorem get?_cons (kv : String × α) (d : Dict α) (key : String) :
    get? (kv :: d) key = if kv.1 = key then some kv.2 else get? d key := by
  simp only [get?, List.find?_cons]
  by_cases h : kv.1 = key
  · simp [h]
  · simp [h]

theorem get?_map (f : α → β) (d : Dict α) (key : String) :
    get? (d.map fun kv => (kv.1, f kv.2)) key = (get? d key).map f := by
  induction d with
  | nil => rfl
  | cons kv rest ih =>
    simp only [get?, List.map_cons, List.find?_cons] at ih ⊢
    cases decide (kv.1 = key) with
    | true => rfl
    | false => exact ih

theorem mem_of_get? {d : Dict α} {key : String} {a : α} (h : get? d key = some a) :
    (key, a) ∈ d := by
  obtain ⟨kv, hf, rfl⟩ := Option.map_eq_some_iff.mp h
  obtain rfl : kv.1 = key := by simpa using List.find?_some hf
  exact List.mem_of_find?_eq_some hf

theorem mem_insert {key : String} {value : α} {d : Dict α} {kv : String × α}
    (h : kv ∈ insert key value d) : kv = (key, value) ∨ kv ∈ d := by
  induction d with
  | nil => exact .inl (List.mem_singleton.mp h)
  | cons first rest ih =>
    obtain ⟨k, v⟩ := first
    rw [insert] at h
    split at h
    · exact List.mem_cons.mp h
    · split at h
      · exact (List.mem_cons.mp h).imp_right (List.mem_cons_of_mem _)
      · rcases List.mem_cons.mp h with rfl | h
        · exact .inr List.mem_cons_self
        · exact (ih h).imp_right (List.mem_cons_of_mem _)

theorem exists_get?_of_mem {d : Dict α} {key : String} (h : key ∈ d.map (·.1)) :
    ∃ a, get? d key = some a := by
  obtain ⟨kv, hkv, rfl⟩ := List.mem_map.mp h
  have found : (d.find? (·.1 = kv.1)).isSome := List.find?_isSome.mpr ⟨kv, hkv, by simp⟩
  obtain ⟨kv', hf⟩ := Option.isSome_iff_exists.mp found
  exact ⟨kv'.2, by rw [get?, hf, Option.map_some]⟩

theorem length_insert (key : String) (value : α) (d : Dict α) :
    d.length ≤ (insert key value d).length ∧ 0 < (insert key value d).length := by
  induction d with
  | nil => simp [insert]
  | cons kv rest ih =>
    obtain ⟨k, v⟩ := kv
    simp only [insert]
    split
    · simp
    · split
      · simp
      · simp only [List.length_cons]
        omega

theorem length_insert_of_new {key : String} {d : Dict α} (h : get? d key = none) (value : α) :
    (insert key value d).length = d.length + 1 := by
  induction d with
  | nil => rfl
  | cons kv rest ih =>
    obtain ⟨k, v⟩ := kv
    simp only [get?, List.find?_cons] at h
    split at h
    · cases h
    · next hk =>
      simp only [insert]
      split
      · rfl
      · rw [if_neg (by simpa [eq_comm] using hk), List.length_cons, List.length_cons, ih h]

theorem get?_foldl_insert_of_not_mem {key : String} {kvs : List (String × α)}
    (h : key ∉ kvs.map (·.1)) (d : Dict α) :
    get? (kvs.foldl (fun d kv => insert kv.1 kv.2 d) d) key = get? d key := by
  induction kvs generalizing d with
  | nil => rfl
  | cons kv kvs ih =>
    rw [List.map_cons, List.mem_cons, not_or] at h
    rw [List.foldl_cons, ih h.2, get?_insert_of_ne h.1]

theorem get?_ofList_of_not_mem {key : String} {kvs : List (String × α)}
    (h : key ∉ kvs.map (·.1)) : get? (ofList kvs) key = none :=
  get?_foldl_insert_of_not_mem h []

theorem get?_ofList_of_mem {key : String} {a : α} {kvs : List (String × α)}
    (distinct : (kvs.map (·.1)).Nodup) (h : (key, a) ∈ kvs) : get? (ofList kvs) key = some a := by
  obtain ⟨before, behind, rfl⟩ := List.append_of_mem h
  rw [List.map_append, List.map_cons, List.nodup_append, List.nodup_cons] at distinct
  rw [ofList, List.foldl_append, List.foldl_cons]
  exact (get?_foldl_insert_of_not_mem distinct.2.1.1 _).trans (get?_insert_self key a _)

/- Keys in order -/

def Sorted (d : Dict α) : Prop := d.Pairwise fun a b => a.1 < b.1

theorem Sorted.insert {d : Dict α} (h : Sorted d) (key : String) (value : α) :
    Sorted (insert key value d) := by
  induction d with
  | nil => exact List.pairwise_singleton _ _
  | cons kv rest ih =>
    obtain ⟨k, v⟩ := kv
    obtain ⟨first, sorted⟩ := List.pairwise_cons.mp h
    rw [Dict.insert]
    split
    · next lt =>
      refine List.pairwise_cons.mpr ⟨List.forall_mem_cons.mpr ⟨lt, fun other ho => ?_⟩, h⟩
      exact lt_trans lt (first other ho)
    · next ge =>
      split
      · next same =>
        subst same
        exact List.pairwise_cons.mpr ⟨first, sorted⟩
      · next other =>
        refine List.pairwise_cons.mpr ⟨fun kv hkv => ?_, ih sorted⟩
        rcases mem_insert hkv with rfl | hkv
        · exact lt_of_le_of_ne (not_lt.mp ge) (Ne.symm other)
        · exact first kv hkv

theorem sorted_foldl_insert (kvs : List (String × α)) {d : Dict α} (h : Sorted d) :
    Sorted (kvs.foldl (fun d (k, v) => insert k v d) d) := by
  induction kvs generalizing d with
  | nil => exact h
  | cons kv kvs ih => exact ih (h.insert kv.1 kv.2)

theorem sorted_ofList (kvs : List (String × α)) : Sorted (ofList kvs) :=
  sorted_foldl_insert kvs .nil

theorem Sorted.filter {d : Dict α} (h : Sorted d) (p : String × α → Bool) : Sorted (d.filter p) :=
  List.Pairwise.filter p h

theorem Sorted.get?_eq_some_iff {d : Dict α} (h : Sorted d) {key : String} {a : α} :
    get? d key = some a ↔ (key, a) ∈ d := by
  refine ⟨mem_of_get?, fun ha => ?_⟩
  induction d with
  | nil => cases ha
  | cons kv rest ih =>
    obtain ⟨first, sorted⟩ := List.pairwise_cons.mp h
    rw [get?_cons]
    rcases List.mem_cons.mp ha with rfl | ha
    · exact if_pos rfl
    · rw [if_neg (first (key, a) ha).ne, ih sorted ha]

theorem Sorted.ext {d d' : Dict α} (h : Sorted d) (h' : Sorted d')
    (same : ∀ key, get? d key = get? d' key) : d = d' := by
  refine List.Pairwise.eq_of_mem_iff h h' fun (key, a) => ?_
  rw [← h.get?_eq_some_iff, ← h'.get?_eq_some_iff, same]

theorem get?_filter (p : String → Bool) (d : Dict α) (key : String) :
    get? (d.filter fun kv => p kv.1) key = if p key then get? d key else none := by
  induction d with
  | nil => simp
  | cons kv rest ih =>
    rw [List.filter_cons, get?_cons]
    by_cases hk : kv.1 = key
    · subst hk
      cases hp : p kv.1 with
      | true => simp [get?_cons]
      | false => simpa [hp] using ih
    · rw [if_neg hk]
      split
      · rw [get?_cons, if_neg hk, ih]
      · exact ih

end TypeLang.Dict
