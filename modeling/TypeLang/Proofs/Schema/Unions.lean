import Mathlib.Data.List.Induction
import Mathlib.Data.List.Nodup
import TypeLang.Proofs.Schema.Distinct

namespace TypeLang

theorem Entry.kind_of_unionName? {e : Entry} {name : String} (h : e.unionName? = some name) :
    e.kind = .constructor := by
  cases hk : e.kind with
  | constructor => rfl
  | method =>
    rw [Entry.unionName?, hk] at h
    cases h

theorem nodup_eraseDups {α : Type} [BEq α] [LawfulBEq α] (l : List α) :
    l.eraseDups.Nodup := by
  induction l using List.reverseRecOn with
  | nil => exact List.nodup_nil
  | append_singleton l a ih =>
    rw [eraseDups_append_singleton]
    split
    · exact ih
    · next h =>
      rw [← List.concat_eq_append]
      exact ih.concat (by rwa [List.mem_eraseDups])

theorem eraseDups_of_nodup {α : Type} [BEq α] [LawfulBEq α] {l : List α}
    (h : l.Nodup) : l.eraseDups = l := by
  induction l using List.reverseRecOn with
  | nil => rfl
  | append_singleton l a ih =>
    obtain ⟨hl, -, ha⟩ := List.nodup_append.mp h
    have new : a ∉ l := fun hm => ha a hm a (List.mem_singleton_self a) rfl
    rw [eraseDups_append_singleton, if_neg new, ih hl]

namespace Schema

def unionOf (comments : Dict String) (es : List Entry) (name : String) : Union where
  name
  members := membersOf es name
  comment := comments.get? name

def unionsOf (comments : Dict String) (entries : List Entry) : List Union :=
  (entries.filterMap Entry.unionName?).eraseDups.map (unionOf comments entries)

section

variable {entries : List Entry} {comments : Dict String} {s : Schema}

theorem unionNames_nodup (s : Schema) : (s.unions.map (·.name)).Nodup := by
  rw [s.indexed.unions.names]
  exact nodup_eraseDups _

theorem union_unique {u v : Union} (hu : u ∈ s.unions) (hv : v ∈ s.unions)
    (hn : u.name = v.name) : u = v :=
  List.inj_on_of_nodup_map (unionNames_nodup s) hu hv hn

theorem exists_unionName?_iff (s : Schema) (name : String) :
    (∃ e ∈ s.entries, e.unionName? = some name) ↔ name ∈ s.unions.map (·.name) := by
  rw [s.indexed.unions.names, List.mem_eraseDups, List.mem_filterMap]

theorem union?_eq_some_iff {name : String} {u : Union} :
    s.union? name = some u ↔ u ∈ s.unions ∧ u.name = name := by
  rw [Tables.union?, s.indexed.unions.finds.bind_eq_some_iff, Option.some.injEq]

theorem union?_eq_none_iff {name : String} :
    s.union? name = none ↔ ∀ u ∈ s.unions, u.name ≠ name := by
  rw [Option.eq_none_iff_forall_ne_some]
  simp [union?_eq_some_iff]

theorem members_of_mem_unions {u : Union} (hu : u ∈ s.unions) :
    u.members = membersOf s.entries u.name :=
  s.indexed.unions.members u hu

theorem mem_members_iff {u : Union} (hu : u ∈ s.unions) {member : String} :
    member ∈ u.members ↔ ∃ e ∈ s.entries, e.unionName? = some u.name ∧ e.name = member := by
  rw [members_of_mem_unions hu]
  simp [membersOf, and_assoc]

theorem unions_eq_of_comments (h : ∀ u ∈ s.unions, u.comment = comments.get? u.name) :
    s.unions = unionsOf comments s.entries := by
  rw [unionsOf, ← s.indexed.unions.names, List.map_map]
  refine (List.map_id' s.unions).symm.trans (List.map_congr_left fun u hu => ?_)
  rw [Function.comp_apply, unionOf, ← members_of_mem_unions hu, ← h u hu]

theorem comment_of_mem_unions (h : ofEntries entries comments = .ok s) {u : Union}
    (hu : u ∈ s.unions) : u.comment = comments.get? u.name := by
  rw [(ofEntries_eq_ok_iff.mp h).2] at hu
  exact Tables.comment_of_mem_tabulate hu

/-- The unions that are built up entry by entry are those of all entries. -/
theorem unions_eq (h : ofEntries entries comments = .ok s) :
    s.unions = unionsOf comments s.entries :=
  unions_eq_of_comments fun _ => comment_of_mem_unions h

theorem mem_unions_iff (h : ofEntries entries comments = .ok s) {u : Union} :
    u ∈ s.unions ↔
      (∃ e ∈ s.entries, e.unionName? = some u.name) ∧ u = unionOf comments s.entries u.name := by
  rw [unions_eq h, unionsOf]
  simp only [List.mem_map, List.mem_eraseDups, List.mem_filterMap]
  constructor
  · rintro ⟨name, he, rfl⟩
    exact ⟨he, rfl⟩
  · rintro ⟨he, hu⟩
    exact ⟨u.name, he, hu.symm⟩

theorem unionName?_eq_some_iff
    (kinds : ∀ e ∈ s.entries, ∀ f ∈ s.entries, e.name = f.name → e.kind = f.kind) {e : Entry}
    (he : e ∈ s.entries) {u : Union} (hu : u ∈ s.unions) :
    e.unionName? = some u.name ↔ e.kind = .constructor ∧ e.name ∈ u.members := by
  rw [mem_members_iff hu]
  constructor
  · intro hn
    exact ⟨Entry.kind_of_unionName? hn, e, he, hn, rfl⟩
  · rintro ⟨-, f, hf, hn, hname⟩
    rwa [← List.inj_on_of_nodup_map (names_nodup kinds) hf he hname]

end

end Schema

end TypeLang
