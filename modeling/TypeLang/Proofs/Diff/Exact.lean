import TypeLang.Proofs.Diff.Unions

namespace TypeLang

open Decl

namespace SchemaDiff

def ofKind (d : SchemaDiff) : Kind → Changes Entry EntryDiff
  | .constructor => d.constructors
  | .method => d.methods

@[simp] theorem ofKind_schemas (old new : Schema) (kind : Kind) :
    (Diff.schemas old new).ofKind kind = Diff.entries old new kind := by
  cases kind with
  | constructor => rfl
  | method => rfl

def replayEntries (d : SchemaDiff) (old : Schema) : List Entry :=
  Matching.entries.replay d.constructors (old.ofKind .constructor) ++
    Matching.entries.replay d.methods (old.ofKind .method)

def replayUnions (d : SchemaDiff) (old : Schema) : List Union :=
  Matching.unions.replay d.unions old.unions

end SchemaDiff

/-- Whether two schemas are the same up to comments and to the order of entries and arguments. -/
def Schema.Agrees (s t : Schema) : Prop :=
  (s.entries.map Entry.shape).Perm (t.entries.map Entry.shape)

namespace Schema

theorem perm_ofKind (s : Schema) : (s.ofKind .constructor ++ s.ofKind .method).Perm s.entries := by
  have methods : s.ofKind .method = s.entries.filter fun e => !decide (e.kind = .constructor) := by
    refine List.filter_congr fun e _ => ?_
    cases e.kind with
    | constructor => rfl
    | method => rfl
  rw [methods]
  exact List.filter_append_perm _ _

theorem map_shape_ofKind (s : Schema) (kind : Kind) :
    (s.ofKind kind).map Entry.shape = (s.entries.map Entry.shape).filter (·.kind = kind) := by
  rw [List.filter_map]
  rfl

theorem agrees_iff {s t : Schema} : s.Agrees t ↔ ∀ kind,
    ((s.ofKind kind).map Entry.shape).Perm ((t.ofKind kind).map Entry.shape) := by
  constructor
  · intro h kind
    rw [map_shape_ofKind, map_shape_ofKind]
    exact h.filter _
  · intro h
    have parts := (h .constructor).append (h .method)
    rw [← List.map_append, ← List.map_append] at parts
    exact ((s.perm_ofKind.map _).symm.trans parts).trans (t.perm_ofKind.map _)

end Schema

namespace Diff

structure Exact (old new : Schema) : Prop where
  fates : ∀ kind name, (∃ e ∈ old.entries ++ new.entries, e.key = (kind, name)) →
    ∃! fate, Matching.entries.Meets (old.ofKind kind) (new.ofKind kind)
      ((schemas old new).ofKind kind) name fate
  entries : (((schemas old new).replayEntries old).map Entry.shape).Perm
    (new.entries.map Entry.shape)
  unions : (((schemas old new).replayUnions old).map Union.shape).Perm
    (new.unions.map Union.shape)
  isEmpty_iff : (schemas old new).isEmpty ↔ old.Agrees new
  constructors : (schemas old new).constructors.isEmpty → (schemas old new).unions.isEmpty

section

variable {old new : Schema}

theorem unions_isEmpty_iff : (unions old new).isEmpty ↔
    (old.unions.map Union.shape).Perm (new.unions.map Union.shape) :=
  Matching.isEmpty_iff (lawful_unions _ _) (compares_unions old new) old.unionNames_nodup
    new.unionNames_nodup

variable (names : ∀ e ∈ old.entries ++ new.entries, (e.arguments.map (·.name)).Nodup)

include names

theorem lawful_ofKind (kind : Kind) :
    Matching.entries.Lawful (old.ofKind kind) (new.ofKind kind) := by
  refine lawful_entries (fun e he => (Schema.mem_ofKind.mp he).2)
    (fun e he => (Schema.mem_ofKind.mp he).2) fun e he => names e ?_
  rw [List.mem_append] at he ⊢
  exact he.imp (fun h => (Schema.mem_ofKind.mp h).1) fun h => (Schema.mem_ofKind.mp h).1

theorem replay_ofKind (kind : Kind) :
    ((Matching.entries.replay (Diff.entries old new kind) (old.ofKind kind)).map Entry.shape).Perm
      ((new.ofKind kind).map Entry.shape) :=
  Matching.replay_perm (lawful_ofKind names kind) (compares_entries old new kind)
    (old.names_ofKind kind) (new.names_ofKind kind)

theorem entries_isEmpty_iff (kind : Kind) : (Diff.entries old new kind).isEmpty ↔
    ((old.ofKind kind).map Entry.shape).Perm ((new.ofKind kind).map Entry.shape) :=
  Matching.isEmpty_iff (lawful_ofKind names kind) (compares_entries old new kind)
    (old.names_ofKind kind) (new.names_ofKind kind)

theorem existsUnique_fate {kind : Kind} {name : String}
    (h : ∃ e ∈ old.entries ++ new.entries, e.key = (kind, name)) :
    ∃! fate, Matching.entries.Meets (old.ofKind kind) (new.ofKind kind)
      (Diff.entries old new kind) name fate := by
  refine Matching.existsUnique_fate (lawful_ofKind names kind) (compares_entries old new kind)
    (old.names_ofKind kind) (new.names_ofKind kind) ?_
  obtain ⟨e, he, hk⟩ := h
  obtain ⟨rfl, rfl⟩ := Prod.mk.injEq .. ▸ hk
  rw [List.mem_append] at he
  exact he.imp (fun h => List.mem_map_of_mem (Schema.mem_ofKind.mpr ⟨h, rfl⟩))
    fun h => List.mem_map_of_mem (Schema.mem_ofKind.mpr ⟨h, rfl⟩)

theorem unions_isEmpty (h : (Diff.entries old new .constructor).isEmpty) :
    (unions old new).isEmpty :=
  (unions_isEmpty_iff).mpr
    (unions_perm ((entries_isEmpty_iff names .constructor).mp h))

theorem schemas_isEmpty_iff : (schemas old new).isEmpty ↔ old.Agrees new := by
  rw [Schema.agrees_iff, SchemaDiff.isEmpty, Bool.and_eq_true, Bool.and_eq_true]
  simp only [← entries_isEmpty_iff names]
  constructor
  · rintro ⟨⟨constructors, methods⟩, -⟩ kind
    cases kind with
    | constructor => exact constructors
    | method => exact methods
  · intro h
    exact ⟨⟨h .constructor, h .method⟩, unions_isEmpty names (h .constructor)⟩

/-- Where arguments have distinct names, the diff of two schemas is complete and exact. -/
theorem schemas_exact : Exact old new where
  fates kind name h := by
    have fate := existsUnique_fate names h
    cases kind with
    | constructor => exact fate
    | method => exact fate
  entries := by
    rw [SchemaDiff.replayEntries, List.map_append]
    refine ((replay_ofKind names .constructor).append
      (replay_ofKind names .method)).trans ?_
    rw [← List.map_append]
    exact new.perm_ofKind.map _
  unions := Matching.replay_perm (lawful_unions _ _) (compares_unions old new) old.unionNames_nodup
    new.unionNames_nodup
  isEmpty_iff := schemas_isEmpty_iff names
  constructors := unions_isEmpty names

end

def grove : Schema :=
  .of [
    ⟨.constructor, "oak", 1, .named "Tree" false, [], [], none⟩,
    ⟨.constructor, "elm", 2, .named "Tree" false, [],
      [⟨"height", .int, none⟩, ⟨"width", .int, none⟩], none⟩,
    ⟨.method, "plant", 3, .named "Tree" false, [], [⟨"tree", .string, none⟩], none⟩] [] rfl

def regrown : Schema :=
  .of [
    ⟨.method, "plant", 3, .named "Tree" false, [], [⟨"tree", .string, none⟩], some "grows"⟩,
    ⟨.constructor, "fir", 4, .named "Conifer" false, [], [], none⟩,
    ⟨.constructor, "elm", 2, .named "Tree" false, [],
      [⟨"width", .long, none⟩, ⟨"height", .int, none⟩], none⟩] [] rfl

theorem schemas_exact_grove : grove.Obtained ∧ regrown.Obtained ∧
    (∀ e ∈ grove.entries ++ regrown.entries, (e.arguments.map (·.name)).Nodup) ∧
    (schemas grove regrown).isEmpty = false ∧ Exact grove regrown := by
  have ho : grove.Obtained := .entries (Schema.ofEntries_of _ _ rfl)
  have hn : regrown.Obtained := .entries (Schema.ofEntries_of _ _ rfl)
  have names : ∀ e ∈ grove.entries ++ regrown.entries, (e.arguments.map (·.name)).Nodup := by
    decide
  exact ⟨ho, hn, names, rfl, schemas_exact names⟩

end Diff

end TypeLang
