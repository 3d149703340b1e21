import Mathlib.Data.List.Basic
import TypeLang.Proofs.Int32
import TypeLang.Schema.Merge

namespace TypeLang

namespace Merge

def IsHighest (layers : List Int32) (top : Int32) : Prop :=
  (∀ l ∈ layers, l ≤ top) ∧ (top ∈ layers ∨ layers = [] ∧ top = 0)

theorem isHighest_highest (layers : List Int32) : IsHighest layers (highest layers) := by
  rw [highest]
  cases h : layers.max? with
  | none =>
    obtain rfl := List.max?_eq_none_iff.mp h
    exact ⟨by simp, .inr ⟨rfl, rfl⟩⟩
  | some top =>
    obtain ⟨hm, hle⟩ := List.max?_eq_some_iff.mp h
    exact ⟨hle, .inl hm⟩

theorem IsHighest.unique {layers layers' : List Int32} {top top' : Int32}
    (h : IsHighest layers top) (h' : IsHighest layers' top')
    (same : ∀ l, l ∈ layers ↔ l ∈ layers') : top = top' := by
  rcases h.2 with hm | ⟨rfl, rfl⟩
  · rcases h'.2 with hm' | ⟨rfl, -⟩
    · exact Int32.le_antisymm (h'.1 _ ((same _).mp hm)) (h.1 _ ((same _).mpr hm'))
    · cases (same _).mp hm
  · rcases h'.2 with hm' | ⟨-, rfl⟩
    · cases (same _).mpr hm'
    · rfl

variable {α : Type} {f : Layered → Option α} {sources : List Layered}

/-- What the sources of the highest layer that has something have, in the order of the sources. -/
def newest (f : Layered → Option α) (sources : List Layered) : List α :=
  sources.filterMap fun s =>
    if ∀ t ∈ sources, (f t).isSome → t.layer ≤ s.layer then f s else none

theorem mem_newest {a : α} : a ∈ newest f sources ↔
    ∃ s ∈ sources, f s = some a ∧ ∀ t ∈ sources, (f t).isSome → t.layer ≤ s.layer := by
  simp only [newest, List.mem_filterMap, Option.ite_none_right_eq_some, and_comm]

theorem newest_singleton (f : Layered → Option α) (s : Layered) :
    newest f [s] = (f s).toList := by
  have counts : ∀ t ∈ [s], (f t).isSome → t.layer ≤ s.layer := by
    intro t ht _
    obtain rfl := List.mem_singleton.mp ht
    exact Int32.le_refl _
  rw [newest, List.filterMap_cons, if_pos counts]
  cases f s with
  | none => rfl
  | some a => rfl

theorem newest_perm {sources' : List Layered} (h : sources.Perm sources') :
    (newest f sources).Perm (newest f sources') := by
  have same : ∀ s : Layered, (∀ t ∈ sources, (f t).isSome → t.layer ≤ s.layer) ↔
      ∀ t ∈ sources', (f t).isSome → t.layer ≤ s.layer :=
    fun s => forall_congr' fun t => by rw [h.mem_iff]
  simp only [newest, same]
  exact h.filterMap _

def layersOf (f : Layered → Option α) (sources : List Layered) : List Int32 :=
  (sources.filter fun s => (f s).isSome).map (·.layer)

theorem mem_layersOf {l : Int32} :
    l ∈ layersOf f sources ↔ ∃ s ∈ sources, (f s).isSome ∧ s.layer = l := by
  simp only [layersOf, List.mem_map, List.mem_filter, and_assoc]

theorem newest_eq_of_isHighest {top : Int32} (h : IsHighest (layersOf f sources) top) :
    newest f sources = sources.filterMap fun s => if s.layer = top then f s else none := by
  refine List.filterMap_congr fun s hs => ?_
  cases hf : f s with
  | none => simp
  | some a =>
    have hm : s.layer ∈ layersOf f sources := mem_layersOf.mpr ⟨s, hs, by simp [hf], rfl⟩
    have iff : (∀ t ∈ sources, (f t).isSome → t.layer ≤ s.layer) ↔ s.layer = top := by
      constructor
      · intro hle
        rcases h.2 with ht | ⟨hn, -⟩
        · obtain ⟨t, hs, hft, rfl⟩ := mem_layersOf.mp ht
          exact Int32.le_antisymm (h.1 _ hm) (hle t hs hft)
        · rw [hn] at hm
          cases hm
      · rintro rfl t ht hft
        exact h.1 _ (mem_layersOf.mpr ⟨t, ht, hft, rfl⟩)
    simp only [iff]

theorem newest_eq_nil_iff : newest f sources = [] ↔ ∀ s ∈ sources, f s = none := by
  constructor
  · intro h s hs
    by_contra hf
    have hm : s.layer ∈ layersOf f sources :=
      mem_layersOf.mpr ⟨s, hs, Option.isSome_iff_ne_none.mpr hf, rfl⟩
    have top := isHighest_highest (layersOf f sources)
    rcases top.2 with ht | ⟨hn, -⟩
    · obtain ⟨t, ht, hft, hl⟩ := mem_layersOf.mp ht
      obtain ⟨a, ha⟩ := Option.isSome_iff_exists.mp hft
      have found : a ∈ newest f sources := by
        rw [newest_eq_of_isHighest top]
        exact List.mem_filterMap.mpr ⟨t, ht, by rw [if_pos hl, ha]⟩
      rw [h] at found
      cases found
    · rw [hn] at hm
      cases hm
  · intro h
    rw [newest, List.filterMap_eq_nil_iff]
    intro s hs
    simp [h s hs]

theorem newest_insert_of_none (l₁ l₂ : List Layered) {s : Layered} (h : f s = none) :
    newest f (l₁ ++ s :: l₂) = newest f (l₁ ++ l₂) := by
  have same : ∀ u : Layered, (∀ t ∈ l₁ ++ s :: l₂, (f t).isSome → t.layer ≤ u.layer) ↔
      ∀ t ∈ l₁ ++ l₂, (f t).isSome → t.layer ≤ u.layer := by
    intro u
    simp only [List.mem_append, List.mem_cons]
    refine ⟨fun hu t ht => hu t (by tauto), ?_⟩
    rintro hu t (ht | rfl | ht) hft
    · exact hu t (.inl ht) hft
    · simp [h] at hft
    · exact hu t (.inr ht) hft
  simp only [newest, same, List.filterMap_append, List.filterMap_cons, h, ite_self]

theorem layer_le_of_insert {l₁ l₂ : List Layered} {s : Layered}
    (top : ∀ t ∈ l₁ ++ l₂, t.layer ≤ s.layer) : ∀ t ∈ l₁ ++ s :: l₂, t.layer ≤ s.layer := by
  intro t ht
  rcases List.mem_append.mp ht with ht | ht
  · exact top t (List.mem_append_left l₂ ht)
  · rcases List.mem_cons.mp ht with rfl | ht
    · exact Int32.le_refl _
    · exact top t (List.mem_append_right l₁ ht)

theorem newest_insert_of_some {l₁ l₂ : List Layered} {s : Layered} {a : α} (h : f s = some a)
    (top : ∀ t ∈ l₁ ++ l₂, t.layer ≤ s.layer) :
    ∃ k₁ k₂, newest f (l₁ ++ s :: l₂) = k₁ ++ a :: k₂ ∧
      (k₁ ++ k₂ = [] ∨ newest f (l₁ ++ l₂) = k₁ ++ k₂) := by
  let onTop := fun t : Layered => if t.layer = s.layer then f t else none
  refine ⟨l₁.filterMap onTop, l₂.filterMap onTop, ?_, ?_⟩
  · have highest : IsHighest (layersOf f (l₁ ++ s :: l₂)) s.layer := by
      refine ⟨fun l hl => ?_, .inl (mem_layersOf.mpr ⟨s, by simp, by simp [h], rfl⟩)⟩
      obtain ⟨t, ht, -, rfl⟩ := mem_layersOf.mp hl
      exact layer_le_of_insert top t ht
    rw [newest_eq_of_isHighest highest, List.filterMap_append, List.filterMap_cons]
    simp [onTop, h]
  · rw [← List.filterMap_append]
    by_cases hm : s.layer ∈ layersOf f (l₁ ++ l₂)
    · -- others of that layer have something as well
      right
      refine newest_eq_of_isHighest ⟨fun l hl => ?_, .inl hm⟩
      obtain ⟨t, ht, -, rfl⟩ := mem_layersOf.mp hl
      exact top t ht
    · left
      rw [List.filterMap_eq_nil_iff]
      intro t ht
      simp only [onTop, ite_eq_right_iff]
      intro hl
      by_contra hf
      exact hm (mem_layersOf.mpr ⟨t, ht, Option.isSome_iff_ne_none.mpr hf, hl⟩)

theorem head?_newest_insert {l₁ l₂ : List Layered} {s : Layered}
    (h : f s = (newest f (l₁ ++ l₂)).head?) (top : ∀ t ∈ l₁ ++ l₂, t.layer ≤ s.layer) :
    (newest f (l₁ ++ s :: l₂)).head? = (newest f (l₁ ++ l₂)).head? := by
  cases hf : f s with
  | none => rw [newest_insert_of_none _ _ hf]
  | some a =>
    obtain ⟨k₁, k₂, hk, hold⟩ := newest_insert_of_some hf top
    rw [hk, ← h, hf]
    cases k₁ with
    | nil => rfl
    | cons b k₁ =>
      rcases hold with hold | hold
      · cases hold
      · rw [hf, hold] at h
        exact h.symm

theorem newest_cons_of_lt {s t : Layered} (ht : t ∈ sources) (hft : (f t).isSome)
    (lt : s.layer < t.layer) : newest f (s :: sources) = newest f sources := by
  have below : ¬ ∀ u ∈ s :: sources, (f u).isSome → u.layer ≤ s.layer :=
    fun h => Int32.not_le.mpr lt (h t (List.mem_cons_of_mem s ht) hft)
  have same : ∀ u : Layered, (∀ v ∈ s :: sources, (f v).isSome → v.layer ≤ u.layer) ↔
      ∀ v ∈ sources, (f v).isSome → v.layer ≤ u.layer := by
    refine fun u => ⟨fun h v hv => h v (List.mem_cons_of_mem s hv), fun h v hv hfv => ?_⟩
    rcases List.mem_cons.mp hv with rfl | hv
    · exact Int32.le_trans (Int32.le_of_lt lt) (h t ht hft)
    · exact h v hv hfv
  rw [newest, List.filterMap_cons, if_neg below]
  simp only [newest, same]

theorem head?_newest_cons {s : Layered} {a : α} (h : f s = some a)
    (top : ∀ t ∈ sources, (f t).isSome → t.layer ≤ s.layer) :
    (newest f (s :: sources)).head? = some a := by
  have counts : ∀ t ∈ s :: sources, (f t).isSome → t.layer ≤ s.layer := by
    rw [List.forall_mem_cons]
    exact ⟨fun _ => Int32.le_refl _, top⟩
  rw [newest, List.filterMap_cons, if_pos counts, h]
  rfl

/-- Among sources from the newest to the oldest, those of one layer in their order, the first that
has something has what counts. By induction on the sources: one more stands in front of those that
are no newer. -/
theorem findSome?_mergeSort (f : Layered → Option α) (sources : List Layered) :
    (sources.mergeSort fun a b => b.layer ≤ a.layer).findSome? f = (newest f sources).head? := by
  induction sources with
  | nil => rw [List.mergeSort_nil]; rfl
  | cons s rest ih =>
    have trans : ∀ a b c : Layered, decide (b.layer ≤ a.layer) = true →
        decide (c.layer ≤ b.layer) = true → decide (c.layer ≤ a.layer) = true := by
      simp only [decide_eq_true_eq]
      exact fun a b c hab hbc => Int32.le_trans hbc hab
    have total : ∀ a b : Layered,
        (decide (b.layer ≤ a.layer) || decide (a.layer ≤ b.layer)) = true := by
      simp only [Bool.or_eq_true, decide_eq_true_eq]
      exact fun a b => Int32.le_total b.layer a.layer
    obtain ⟨l₁, l₂, hs, hr, newer⟩ := List.mergeSort_cons trans total s rest
    have perm : (l₁ ++ l₂).Perm rest := hr ▸ List.mergeSort_perm rest _
    have sorted := List.pairwise_mergeSort trans total (s :: rest)
    rw [hs, List.pairwise_append, List.pairwise_cons] at sorted
    rw [hr, List.findSome?_append] at ih
    rw [hs, List.findSome?_append, List.findSome?_cons]
    cases hl : l₁.findSome? f with
    | some b =>
      -- a newer source has something, so that one more below it does not count
      obtain ⟨t, ht, hft⟩ := List.exists_of_findSome?_eq_some hl
      have lt : s.layer < t.layer := by simpa using newer t ht
      rw [newest_cons_of_lt (perm.subset (List.mem_append_left _ ht)) (by simp [hft]) lt, ← ih, hl]
      rfl
    | none =>
      cases hf : f s with
      | none =>
        rw [hl] at ih
        exact ih.trans (congrArg List.head? (newest_insert_of_none [] _ hf).symm)
      | some a =>
        refine (head?_newest_cons hf fun t ht hft => ?_).symm
        rcases List.mem_append.mp (perm.symm.subset ht) with ht | ht
        · rw [List.findSome?_eq_none_iff.mp hl t ht] at hft
          cases hft
        · simpa using sorted.2.1.1 t ht

end Merge

end TypeLang
