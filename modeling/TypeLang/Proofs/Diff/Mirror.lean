import TypeLang.Proofs.Diff.Exact

namespace TypeLang

open Decl

/- Exchanging the sides -/

def Change.swap {α : Type} (c : Change α) : Change α := ⟨c.new, c.old⟩

def Changes.swap {α μ : Type} (f : μ → μ) (c : Changes α μ) : Changes α μ :=
  ⟨c.removed, c.added, c.modified.map f⟩

def ArgumentDiff.swap (d : ArgumentDiff) : ArgumentDiff :=
  { d with type := d.type.map Change.swap, guard := d.guard.map Change.swap }

def EntryDiff.swap (d : EntryDiff) : EntryDiff where
  name := d.name
  id := d.id.map Change.swap
  type := d.type.map Change.swap
  generics := d.generics.map Change.swap
  arguments := d.arguments.map (Changes.swap ArgumentDiff.swap)
  comment := d.comment.map Change.swap

def UnionDiff.swap (d : UnionDiff) : UnionDiff :=
  { d with added := d.removed, removed := d.added }

def SchemaDiff.swap (d : SchemaDiff) : SchemaDiff where
  constructors := d.constructors.swap EntryDiff.swap
  methods := d.methods.swap EntryDiff.swap
  unions := d.unions.swap UnionDiff.swap

/- Another order -/

/-- Whether lists are the same up to order, where `R` compares their members. -/
def Reordered {μ : Type} (R : μ → μ → Prop) (l l' : List μ) : Prop :=
  ∃ m, l.Perm m ∧ List.Forall₂ R m l'

structure Changes.Like {α μ : Type} (R : μ → μ → Prop) (c c' : Changes α μ) : Prop where
  added : c.added = c'.added
  removed : c.removed = c'.removed
  modified : Reordered R c.modified c'.modified

structure EntryDiff.Like (d d' : EntryDiff) : Prop where
  name : d.name = d'.name
  id : d.id = d'.id
  type : d.type = d'.type
  generics : d.generics = d'.generics
  arguments : Option.Rel (Changes.Like Eq) d.arguments d'.arguments
  comment : d.comment = d'.comment

structure SchemaDiff.Like (d d' : SchemaDiff) : Prop where
  constructors : d.constructors.Like EntryDiff.Like d'.constructors
  methods : d.methods.Like EntryDiff.Like d'.methods
  unions : d.unions.Like Eq d'.unions

section

variable {α μ : Type} {R : μ → μ → Prop} {c c' : Changes α μ}

theorem Reordered.eq_nil_iff {l l' : List μ} (h : Reordered R l l') : l = [] ↔ l' = [] := by
  obtain ⟨m, perm, rel⟩ := h
  rw [← List.length_eq_zero_iff, perm.length_eq, rel.length_eq, List.length_eq_zero_iff]

theorem Changes.Like.isEmpty_eq (h : c.Like R c') : c.isEmpty = c'.isEmpty := by
  rw [Bool.eq_iff_iff]
  simp [isEmpty, h.added, h.removed, h.modified.eq_nil_iff]

theorem Changes.isEmpty_swap (f : μ → μ) (c : Changes α μ) : (c.swap f).isEmpty = c.isEmpty := by
  rw [Bool.eq_iff_iff]
  simp [isEmpty, swap, and_comm]

end

theorem isSome_eq_of_rel {α β : Type} {R : α → β → Prop} {o : Option α} {o' : Option β}
    (h : Option.Rel R o o') : o.isSome = o'.isSome := by
  cases h with
  | none => rfl
  | some _ => rfl

theorem rel_eq_of_eq {α : Type} {o o' : Option α} (h : o = o') : Option.Rel Eq o o' := by
  subst h
  cases o with
  | none => exact .none
  | some a => exact .some rfl

theorem EntryDiff.Like.isModified_eq {d d' : EntryDiff} (h : d.Like d') :
    d.isModified = d'.isModified := by
  rw [isModified, h.id, h.type, h.generics, isSome_eq_of_rel h.arguments, isModified]

@[simp] theorem EntryDiff.isModified_swap (d : EntryDiff) :
    d.swap.isModified = d.isModified := by
  simp [isModified, swap]

/- Members of two lists by their keys -/

namespace Matching

variable {α μ κ : Type} {key : α → κ} {xs ys : List α} {findX findY : κ → Option α}

def pairs (key : α → κ) (find : κ → Option α) (xs : List α) : List (α × α) :=
  xs.filterMap fun x => (find (key x)).map (x, ·)

theorem nodup_pairs (h : (xs.map key).Nodup) (find : κ → Option α) :
    (pairs key find xs).Nodup := by
  have firsts : ((pairs key find xs).map fun p => key p.1).Sublist (xs.map key) := by
    refine map_filterMap_sublist (fun x p hp => ?_) xs
    obtain ⟨y, -, rfl⟩ := Option.map_eq_some_iff.mp hp
    rfl
  exact (h.sublist firsts).of_map

theorem mem_pairs (h : ∀ k y, findY k = some y ↔ y ∈ ys ∧ key y = k) {x y : α} :
    (x, y) ∈ pairs key findY xs ↔ x ∈ xs ∧ y ∈ ys ∧ key x = key y := by
  simp only [pairs, List.mem_filterMap, Option.map_eq_some_iff, h, Prod.mk.injEq]
  constructor
  · rintro ⟨x', hx, y', ⟨hy, hk⟩, rfl, rfl⟩
    exact ⟨hx, hy, hk.symm⟩
  · rintro ⟨hx, hy, hk⟩
    exact ⟨x, hx, y, ⟨hy, hk.symm⟩, rfl, rfl⟩

theorem filterMap_pairs (find : κ → Option α) (f : α → α → Option μ) (xs : List α) :
    (pairs key find xs).filterMap (fun p => f p.1 p.2)
      = xs.filterMap fun x => (find (key x)).bind (f x) := by
  rw [pairs, List.filterMap_filterMap]
  refine List.filterMap_congr fun x _ => ?_
  cases find (key x) with
  | none => rfl
  | some y => rfl

theorem forall₂_filterMap {ι : Type} {R : μ → μ → Prop} {f g : ι → Option μ} {l : List ι}
    (h : ∀ p ∈ l, Option.Rel R (f p) (g p)) :
    List.Forall₂ R (l.filterMap f) (l.filterMap g) := by
  induction l with
  | nil => exact .nil
  | cons p l ih =>
    obtain ⟨first, rest⟩ := List.forall_mem_cons.mp h
    rw [List.filterMap_cons, List.filterMap_cons]
    generalize f p = o, g p = o' at first
    cases first with
    | none => exact ih rest
    | some hR => exact .cons hR (ih rest)

section

variable (hx : ∀ k x, findX k = some x ↔ x ∈ xs ∧ key x = k)
  (hy : ∀ k y, findY k = some y ↔ y ∈ ys ∧ key y = k) (nx : (xs.map key).Nodup)
  (ny : (ys.map key).Nodup)

include hx hy nx ny

theorem pairs_perm : (pairs key findY xs).Perm ((pairs key findX ys).map Prod.swap) := by
  refine (List.perm_ext_iff_of_nodup (nodup_pairs nx findY)
    ((nodup_pairs ny findX).map Prod.swap_injective)).mpr fun (x, y) => ?_
  have swapped : (x, y) ∈ (pairs key findX ys).map Prod.swap ↔ (y, x) ∈ pairs key findX ys :=
    List.mem_map_of_injective (a := (y, x)) Prod.swap_injective
  rw [swapped, mem_pairs hy, mem_pairs hx]
  constructor
  · rintro ⟨hx, hy, hk⟩
    exact ⟨hy, hx, hk.symm⟩
  · rintro ⟨hy, hx, hk⟩
    exact ⟨hx, hy, hk.symm⟩

theorem reordered_of_find {R : μ → μ → Prop} {swap : μ → μ} {f g : α → α → Option μ}
    (h : ∀ x ∈ xs, ∀ y ∈ ys, key x = key y → Option.Rel R (f x y) ((g y x).map swap)) :
    Reordered R (xs.filterMap fun x => (findY (key x)).bind (f x))
      ((ys.filterMap fun y => (findX (key y)).bind (g y)).map swap) := by
  rw [← filterMap_pairs, ← filterMap_pairs, List.map_filterMap]
  refine ⟨_, (pairs_perm hx hy nx ny).filterMap _, ?_⟩
  rw [List.filterMap_map]
  refine forall₂_filterMap fun (y, x) hp => ?_
  obtain ⟨hy, hx, hk⟩ := (mem_pairs hx).mp hp
  exact h x hx y hy hk.symm

end

end Matching

/- Each level of a diff -/

theorem Change.between?_swap {α : Type} [DecidableEq α] (a b : α) :
    between? b a = (between? a b).map swap := by
  by_cases h : a = b
  · simp [between?, h]
  · simp [between?, h, Ne.symm h, swap]

namespace Diff

theorem argument?_swap {a b : Argument} (h : a.name = b.name) :
    argument? b a = (argument? a b).map ArgumentDiff.swap := by
  rw [argument?, argument?, Change.between?_swap a.type, Change.between?_swap a.guard]
  simp only [Option.isSome_map, h]
  split
  · rfl
  · rfl

theorem union?_swap {a b : Union} (h : a.name = b.name) :
    union? b a = (union? a b).map UnionDiff.swap := by
  rw [union?, union?]
  simp only [Bool.and_comm (List.isEmpty (a.members.filter _)), h]
  split
  · rfl
  · rfl

theorem arguments_like {as bs : List Argument} (ha : (as.map (·.name)).Nodup)
    (hb : (bs.map (·.name)).Nodup) :
    (arguments bs as).Like Eq ((arguments as bs).swap ArgumentDiff.swap) where
  added := (compares_arguments hb as).added.trans (compares_arguments ha bs).removed.symm
  removed := (compares_arguments hb as).removed.trans (compares_arguments ha bs).added.symm
  modified := Matching.reordered_of_find (fun _ _ => lastArgument?_eq_some_iff ha)
    (fun _ _ => lastArgument?_eq_some_iff hb) ha hb
    fun _ _ _ _ hk => rel_eq_of_eq (argument?_swap hk)

section

variable {a b : Entry} (ha : (a.arguments.map (·.name)).Nodup)
  (hb : (b.arguments.map (·.name)).Nodup) (hn : a.name = b.name)

include ha hb hn

theorem entry_like : (entry b a).Like (entry a b).swap where
  name := hn
  id := Change.between?_swap ..
  type := Change.between?_swap ..
  generics := Change.between?_swap ..
  arguments := by
    have like := arguments_like ha hb
    have same := like.isEmpty_eq.trans (Changes.isEmpty_swap ..)
    simp only [entry, EntryDiff.swap, same]
    split
    · exact .none
    · exact .some like
  comment := Change.between?_swap ..

theorem entryChange?_like :
    Option.Rel EntryDiff.Like (entryChange? b a) ((entryChange? a b).map EntryDiff.swap) := by
  have like := entry_like ha hb hn
  simp only [entryChange?, like.isModified_eq, EntryDiff.isModified_swap]
  split
  · exact .some like
  · exact .none

end

section

variable {old new : Schema}

theorem unions_like : (unions new old).Like Eq ((unions old new).swap UnionDiff.swap) where
  added := rfl
  removed := rfl
  modified := Matching.reordered_of_find (fun _ _ => Schema.union?_eq_some_iff)
    (fun _ _ => Schema.union?_eq_some_iff) new.unionNames_nodup old.unionNames_nodup
    fun _ _ _ _ hk => rel_eq_of_eq (union?_swap hk.symm)

variable (names : ∀ e ∈ old.entries ++ new.entries, (e.arguments.map (·.name)).Nodup)

include names

theorem entries_like (kind : Kind) :
    (Diff.entries new old kind).Like EntryDiff.Like
      ((Diff.entries old new kind).swap EntryDiff.swap) where
  added := rfl
  removed := rfl
  modified := by
    refine Matching.reordered_of_find (fun _ _ => Schema.find?_eq_some_iff_ofKind)
      (fun _ _ => Schema.find?_eq_some_iff_ofKind) (new.names_ofKind kind)
      (old.names_ofKind kind) fun b hb a ha hk => ?_
    exact entryChange?_like (names a (List.mem_append_left _ (Schema.mem_ofKind.mp ha).1))
      (names b (List.mem_append_right _ (Schema.mem_ofKind.mp hb).1)) hk.symm

/-- Where arguments have distinct names, the diff the other way round is the diff with its sides
exchanged, up to the order of what is modified. -/
theorem schemas_mirrored : (schemas new old).Like (schemas old new).swap where
  constructors := entries_like names .constructor
  methods := entries_like names .method
  unions := unions_like

end

theorem schemas_mirrored_grove : grove.Obtained ∧ regrown.Obtained ∧
    (∀ e ∈ grove.entries ++ regrown.entries, (e.arguments.map (·.name)).Nodup) ∧
    (schemas grove regrown).isEmpty = false ∧
    (schemas regrown grove).Like (schemas grove regrown).swap := by
  have ho : grove.Obtained := .entries (Schema.ofEntries_of _ _ rfl)
  have hn : regrown.Obtained := .entries (Schema.ofEntries_of _ _ rfl)
  have names : ∀ e ∈ grove.entries ++ regrown.entries, (e.arguments.map (·.name)).Nodup := by
    decide
  exact ⟨ho, hn, names, rfl, schemas_mirrored names⟩

end Diff

end TypeLang
