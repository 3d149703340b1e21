import Mathlib.Data.Finset.Dedup
import TypeLang.Proofs.Diff.Entries

namespace TypeLang

open Decl

def Union.shape (u : Union) : String × Finset String := (u.name, u.members.toFinset)

def UnionDiff.amend (d : UnionDiff) (u : Union) : Union :=
  { u with members := (u.members.filter (· ∉ d.removed)) ++ d.added }

def Matching.unions : Matching Union UnionDiff String (String × Finset String) where
  key u := u.name
  title d := d.name
  change? := Diff.union?
  amend := UnionDiff.amend
  shape := Union.shape

namespace Diff

theorem union?_eq_none_iff {a b : Union} (h : a.name = b.name) :
    union? a b = none ↔ a.shape = b.shape := by
  have members : union? a b = none ↔
      (∀ m ∈ b.members, m ∈ a.members) ∧ ∀ m ∈ a.members, m ∈ b.members := by
    simp [union?]
  rw [members, Union.shape, Union.shape, Prod.mk.injEq, Finset.ext_iff]
  simp only [h, true_and, List.mem_toFinset]
  exact ⟨fun hm x => ⟨hm.2 x, hm.1 x⟩, fun hm => ⟨fun x => (hm x).mpr, fun x => (hm x).mp⟩⟩

theorem amend_of_union? {a b : Union} (h : a.name = b.name) {d : UnionDiff}
    (hd : union? a b = some d) : d.name = b.name ∧ (d.amend a).shape = b.shape := by
  simp only [union?, Option.ite_none_left_eq_some, Option.some.injEq] at hd
  obtain ⟨-, rfl⟩ := hd
  refine ⟨h, ?_⟩
  rw [Union.shape, Union.shape, Prod.mk.injEq, Finset.ext_iff]
  refine ⟨h, fun x => ?_⟩
  simp only [UnionDiff.amend, List.mem_toFinset, List.mem_append, List.mem_filter]
  by_cases ha : x ∈ a.members
  · simp [ha]
  · simp [ha]

theorem lawful_unions (old new : List Union) : Matching.unions.Lawful old new where
  keyed _ _ h := congrArg Prod.fst h
  change?_eq_none _ _ _ _ h := union?_eq_none_iff h
  amend _ _ _ _ h _ hd := amend_of_union? h hd

end Diff

namespace Schema

variable {s : Schema}

theorem mem_map_unionShape {name : String} {members : Finset String} :
    (name, members) ∈ s.unions.map Union.shape ↔
      (∃ e ∈ s.ofKind .constructor, e.unionName? = some name) ∧
        ∀ m, m ∈ members ↔
          ∃ e ∈ s.ofKind .constructor, e.unionName? = some name ∧ e.name = m := by
  have constructors : ∀ P : Entry → Prop,
      (∃ e ∈ s.ofKind .constructor, e.unionName? = some name ∧ P e) ↔
        ∃ e ∈ s.entries, e.unionName? = some name ∧ P e := by
    refine fun P => ⟨?_, ?_⟩
    · rintro ⟨e, he, hn, hP⟩
      exact ⟨e, (mem_ofKind.mp he).1, hn, hP⟩
    · rintro ⟨e, he, hn, hP⟩
      exact ⟨e, mem_ofKind.mpr ⟨he, Entry.kind_of_unionName? hn⟩, hn, hP⟩
  have inhabited := constructors fun _ => True
  simp only [and_true] at inhabited
  rw [inhabited]
  simp only [constructors, List.mem_map, Union.shape, Prod.mk.injEq]
  constructor
  · rintro ⟨u, hu, rfl, rfl⟩
    refine ⟨(exists_unionName?_iff s u.name).mpr (List.mem_map_of_mem hu), fun m => ?_⟩
    rw [List.mem_toFinset, mem_members_iff hu]
  · rintro ⟨he, hm⟩
    obtain ⟨u, hu, rfl⟩ := List.mem_map.mp ((exists_unionName?_iff s name).mp he)
    refine ⟨u, hu, rfl, Finset.ext fun m => ?_⟩
    rw [hm, List.mem_toFinset, mem_members_iff hu]

end Schema

namespace Diff

variable {old new : Schema}

theorem compares_unions (old new : Schema) :
    Matching.unions.Compares old.unions new.unions (unions old new) :=
  Matching.compares_of_find (fun _ _ => Schema.union?_eq_some_iff)
    (fun _ _ => Schema.union?_eq_some_iff)
    rfl rfl rfl

theorem unionName?_of_shape {a b : Entry} (h : a.shape = b.shape) :
    a.unionName? = b.unionName? := by
  have hk : a.kind = b.kind := congrArg Entry.Shape.kind h
  have ht : a.type = b.type := congrArg Entry.Shape.type h
  rw [Entry.unionName?, Entry.unionName?, hk, ht]

theorem exists_unionName?_of_perm {as bs : List Entry}
    (h : (as.map Entry.shape).Perm (bs.map Entry.shape)) {name : String} {P : String → Prop}
    (ha : ∃ a ∈ as, a.unionName? = some name ∧ P a.name) :
    ∃ b ∈ bs, b.unionName? = some name ∧ P b.name := by
  obtain ⟨a, ha, hn, hP⟩ := ha
  obtain ⟨b, hb, hs⟩ := List.mem_map.mp (h.mem_iff.mp (List.mem_map_of_mem ha))
  have hname : b.name = a.name := congrArg Entry.Shape.name hs
  exact ⟨b, hb, (unionName?_of_shape hs).trans hn, hname ▸ hP⟩

theorem unions_perm
    (h : ((old.ofKind .constructor).map Entry.shape).Perm
      ((new.ofKind .constructor).map Entry.shape)) :
    (old.unions.map Union.shape).Perm (new.unions.map Union.shape) := by
  have distinct (s : Schema) : (s.unions.map Union.shape).Nodup := by
    refine .of_map Prod.fst ?_
    rw [List.map_map]
    exact s.unionNames_nodup
  refine (List.perm_ext_iff_of_nodup (distinct old) (distinct new)).mpr fun ⟨name, members⟩ => ?_
  have same : ∀ P : String → Prop,
      (∃ e ∈ old.ofKind .constructor, e.unionName? = some name ∧ P e.name) ↔
        ∃ e ∈ new.ofKind .constructor, e.unionName? = some name ∧ P e.name := fun _ =>
    ⟨exists_unionName?_of_perm h, exists_unionName?_of_perm h.symm⟩
  have inhabited := same fun _ => True
  simp only [and_true] at inhabited
  rw [Schema.mem_map_unionShape, Schema.mem_map_unionShape, inhabited]
  exact and_congr_right fun _ => forall_congr' fun m => by rw [same (· = m)]

end Diff

end TypeLang
