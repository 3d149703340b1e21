import TypeLang.Proofs.Diff.Exact
import TypeLang.Proofs.Schema.Clash

namespace TypeLang

open Decl

/-- Whether no two arguments share a name without being the same. -/
def Unambiguous (arguments : List Argument) : Prop :=
  ∀ a ∈ arguments, ∀ b ∈ arguments, a.name = b.name → a = b

instance (arguments : List Argument) : Decidable (Unambiguous arguments) :=
  inferInstanceAs (Decidable (∀ a ∈ arguments, ∀ b ∈ arguments, a.name = b.name → a = b))

theorem Entry.eq_of_plain {a b : Entry} (h : a.plain = b.plain) : a.kind = b.kind ∧
    a.name = b.name ∧ a.id = b.id ∧ a.type = b.type ∧ a.generics = b.generics ∧
    a.arguments = b.arguments := by
  simpa [plain] using h

namespace Diff

section

variable {l : List Argument} {a b : Argument} {name : String}

theorem isSome_lastArgument? (h : a ∈ l) : (lastArgument? l a.name).isSome := by
  rw [lastArgument?, List.find?_isSome]
  exact ⟨a, List.mem_reverse.mpr h, by simp⟩

theorem mem_of_lastArgument? (h : lastArgument? l name = some a) : a ∈ l ∧ a.name = name :=
  ⟨List.mem_reverse.mp (List.mem_of_find?_eq_some h), by simpa using List.find?_some h⟩

theorem lastArgument?_self_iff :
    (∀ a ∈ l, lastArgument? l a.name = some a) ↔ Unambiguous l := by
  constructor
  · intro h a ha b hb hn
    have last := h a ha
    rw [hn, h b hb] at last
    exact (Option.some.inj last).symm
  · intro h a ha
    obtain ⟨b, hb⟩ := Option.isSome_iff_exists.mp (isSome_lastArgument? ha)
    obtain ⟨hm, hn⟩ := mem_of_lastArgument? hb
    rw [hb, h b hm a ha hn]

theorem arguments_self_isEmpty_iff : (arguments l l).isEmpty ↔ Unambiguous l := by
  have added : (arguments l l).added = [] := by
    refine List.filter_eq_nil_iff.mpr fun a ha => ?_
    obtain ⟨b, hb⟩ := Option.isSome_iff_exists.mp (isSome_lastArgument? ha)
    simp [hb]
  have removed : (arguments l l).removed = [] := by
    refine List.filter_eq_nil_iff.mpr fun a ha none => ?_
    simpa using List.all_eq_true.mp none a ha
  have modified : (arguments l l).modified = [] ↔ ∀ a ∈ l, lastArgument? l a.name = some a := by
    rw [arguments, List.filterMap_eq_nil_iff]
    refine forall₂_congr fun a ha => ?_
    obtain ⟨b, hb⟩ := Option.isSome_iff_exists.mp (isSome_lastArgument? ha)
    rw [hb, Option.bind_some, argument?_eq_none_iff (mem_of_lastArgument? hb).2, Option.some_inj]
  rw [← lastArgument?_self_iff, ← modified]
  simp [Changes.isEmpty, added, removed]

end

theorem name_of_entryChange? {a b : Entry} {d : EntryDiff} (h : entryChange? a b = some d) :
    d.name = b.name := by
  obtain ⟨-, he⟩ := Option.ite_none_right_eq_some.mp h
  cases he
  rfl

theorem arguments_entry_self_iff {e : Entry} :
    (entry e e).arguments = none ↔ Unambiguous e.arguments := by
  simp [entry, ← arguments_self_isEmpty_iff]

theorem entryChange?_of_plain {a b : Entry} (h : a.plain = b.plain) :
    entryChange? a b = none ↔ Unambiguous a.arguments := by
  obtain ⟨-, -, id, type, generics, arguments⟩ := Entry.eq_of_plain h
  rw [entryChange?_eq_none, EntryDiff.isModified_eq_false_iff, ← arguments_self_isEmpty_iff]
  simp [entry, id, type, generics, arguments]

end Diff

/- Schemas -/

namespace Schema

theorem Sound.of_perm {entries entries' : List Entry}
    (perm : (entries.map Entry.plain).Perm (entries'.map Entry.plain)) (h : Sound entries) :
    Sound entries' where
  ids := by
    have ids := perm.map Entry.id
    rw [List.map_map, List.map_map] at ids
    exact ids.nodup_iff.mp h.ids
  keys := by
    have keys := perm.map Entry.key
    rw [List.map_map, List.map_map] at keys
    exact keys.nodup_iff.mp h.keys
  guards e' he' := by
    obtain ⟨e, he, same⟩ := List.mem_map.mp (perm.mem_iff.mpr (List.mem_map_of_mem he'))
    obtain ⟨-, -, -, -, -, arguments⟩ := Entry.eq_of_plain same
    exact arguments ▸ h.guards e he

theorem map_plain_ofKind (s : Schema) (kind : Kind) :
    (s.ofKind kind).map Entry.plain = (s.entries.map Entry.plain).filter (·.kind = kind) := by
  rw [List.filter_map]
  rfl

theorem agrees_of_plain {s t : Schema}
    (perm : (s.entries.map Entry.plain).Perm (t.entries.map Entry.plain)) : s.Agrees t := by
  have shapes := perm.map Entry.shape
  rwa [List.map_map, List.map_map] at shapes

end Schema

namespace Diff

section

variable {s t : Schema}
  (perm : (s.entries.map Entry.plain).Perm (t.entries.map Entry.plain)) (kind : Kind)

include perm

theorem perm_plain_ofKind :
    ((s.ofKind kind).map Entry.plain).Perm ((t.ofKind kind).map Entry.plain) := by
  rw [Schema.map_plain_ofKind, Schema.map_plain_ofKind]
  exact perm.filter _

theorem perm_names_ofKind :
    ((s.ofKind kind).map (·.name)).Perm ((t.ofKind kind).map (·.name)) := by
  have names := (perm_plain_ofKind perm kind).map Entry.name
  rwa [List.map_map, List.map_map] at names

theorem added_of_plain : (Diff.entries s t kind).added = [] := by
  rw [(compares_entries s t kind).added, List.filter_eq_nil_iff]
  intro e he
  have old := (perm_names_ofKind perm kind).mem_iff.mpr (List.mem_map_of_mem he)
  simpa [Matching.entries] using old

theorem removed_of_plain : (Diff.entries s t kind).removed = [] := by
  rw [(compares_entries s t kind).removed, List.filter_eq_nil_iff]
  intro e he
  have new := (perm_names_ofKind perm kind).mem_iff.mp (List.mem_map_of_mem he)
  simpa [Matching.entries] using new

theorem modified_of_plain {name : String} :
    (∃ d ∈ (Diff.entries s t kind).modified, d.name = name) ↔
      ∃ e ∈ s.ofKind kind, e.name = name ∧ ¬ Unambiguous e.arguments := by
  simp only [(compares_entries s t kind).modified]
  have partner : ∀ a ∈ s.ofKind kind, ∃ b ∈ t.ofKind kind, b.plain = a.plain := fun a ha =>
    List.mem_map.mp ((perm_plain_ofKind perm kind).mem_iff.mp (List.mem_map_of_mem ha))
  constructor
  · rintro ⟨d, ⟨a, ha, b, hb, hk, hd⟩, rfl⟩
    obtain ⟨b', hb', same⟩ := partner a ha
    obtain ⟨-, name, -⟩ := Entry.eq_of_plain same
    obtain rfl := List.inj_on_of_nodup_map (t.names_ofKind kind) hb' hb (name.trans hk)
    have changed : entryChange? a b' ≠ none := by
      intro none
      cases none.symm.trans hd
    exact ⟨a, ha, hk.trans (name_of_entryChange? hd).symm,
      mt (entryChange?_of_plain same.symm).mpr changed⟩
  · rintro ⟨a, ha, rfl, ambiguous⟩
    obtain ⟨b, hb, same⟩ := partner a ha
    obtain ⟨-, name, -⟩ := Entry.eq_of_plain same
    obtain ⟨d, hd⟩ := Option.ne_none_iff_exists'.mp
      (mt (entryChange?_of_plain same.symm).mp ambiguous)
    exact ⟨d, ⟨a, ha, b, hb, name.symm, hd⟩, (name_of_entryChange? hd).trans name⟩

theorem isEmpty_of_plain :
    (Diff.entries s t kind).isEmpty ↔ ∀ e ∈ s.ofKind kind, Unambiguous e.arguments := by
  have modified : (Diff.entries s t kind).modified = [] ↔
      ∀ e ∈ s.ofKind kind, Unambiguous e.arguments := by
    rw [List.eq_nil_iff_forall_not_mem]
    constructor
    · intro none e he
      by_contra ambiguous
      obtain ⟨d, hd, -⟩ := (modified_of_plain perm kind).mpr ⟨e, he, rfl, ambiguous⟩
      exact none d hd
    · intro h d hd
      obtain ⟨e, he, -, ambiguous⟩ := (modified_of_plain perm kind).mp ⟨d, hd, rfl⟩
      exact ambiguous (h e he)
  simp [Changes.isEmpty, added_of_plain perm, removed_of_plain perm, modified]

theorem unions_isEmpty_of_plain : (unions s t).isEmpty :=
  (unions_isEmpty_iff).mpr
    (unions_perm (Schema.agrees_iff.mp (Schema.agrees_of_plain perm) .constructor))

theorem schemas_isEmpty_of_plain :
    (schemas s t).isEmpty ↔ ∀ e ∈ s.entries, Unambiguous e.arguments := by
  rw [SchemaDiff.isEmpty, Bool.and_eq_true, Bool.and_eq_true]
  simp only [schemas, isEmpty_of_plain perm, unions_isEmpty_of_plain perm, and_true]
  constructor
  · rintro ⟨constructors, methods⟩ e he
    cases hk : e.kind with
    | constructor => exact constructors e (Schema.mem_ofKind.mpr ⟨he, hk⟩)
    | method => exact methods e (Schema.mem_ofKind.mpr ⟨he, hk⟩)
  · intro h
    exact ⟨fun e he => h e (Schema.mem_ofKind.mp he).1, fun e he => h e (Schema.mem_ofKind.mp he).1⟩

end

structure Same (s t : Schema) : Prop where
  added : ∀ kind, ((schemas s t).ofKind kind).added = []
  removed : ∀ kind, ((schemas s t).ofKind kind).removed = []
  modified : ∀ kind name, (∃ d ∈ ((schemas s t).ofKind kind).modified, d.name = name) ↔
    ∃ e ∈ s.entries, e.key = (kind, name) ∧ ¬ Unambiguous e.arguments
  unions : (schemas s t).unions.isEmpty
  isEmpty_iff : (schemas s t).isEmpty ↔ ∀ e ∈ s.entries, Unambiguous e.arguments

theorem same_of_plain {s t : Schema}
    (perm : (s.entries.map Entry.plain).Perm (t.entries.map Entry.plain)) : Same s t where
  added kind := by rw [SchemaDiff.ofKind_schemas, added_of_plain perm]
  removed kind := by rw [SchemaDiff.ofKind_schemas, removed_of_plain perm]
  modified kind name := by
    rw [SchemaDiff.ofKind_schemas, modified_of_plain perm]
    simp only [Schema.mem_ofKind, Entry.key, Prod.mk.injEq, and_assoc]
  unions := unions_isEmpty_of_plain perm
  isEmpty_iff := schemas_isEmpty_of_plain perm

/-- The entries of a schema make a schema in any order and with any comments. Their diff is empty
just if no entry has two arguments of one name that are not the same, and just such an entry has
changes of arguments from itself to itself. -/
theorem same_of_perm {entries entries' : List Entry} {comments : Dict String} {s : Schema}
    (h : Schema.ofEntries entries comments = .ok s)
    (perm : (entries.map Entry.plain).Perm (entries'.map Entry.plain)) (comments' : Dict String) :
    (∃ t, Schema.ofEntries entries' comments' = .ok t ∧ Same s t) ∧
      ∀ e ∈ entries, (entry e e).arguments = none ↔ Unambiguous e.arguments := by
  have sound := (Schema.exists_ofEntries_iff_sound comments).mp ⟨s, h⟩
  obtain ⟨t, ht⟩ := (Schema.exists_ofEntries_iff_sound comments').mpr (sound.of_perm perm)
  rw [← Schema.entries_eq h, ← Schema.entries_eq ht] at perm
  exact ⟨⟨t, ht, same_of_plain perm⟩,
    fun _ _ => arguments_entry_self_iff⟩

theorem same_of_perm_grove : Schema.ofEntries grove.entries [] = .ok grove ∧
    (grove.entries.map Entry.plain).Perm (grove.entries.reverse.map Entry.plain) ∧
    ∃ t, Schema.ofEntries grove.entries.reverse [("Tree", "grows")] = .ok t ∧ Same grove t ∧
      (schemas grove t).isEmpty := by
  have h : Schema.ofEntries grove.entries [] = .ok grove := Schema.ofEntries_of _ _ rfl
  have perm := grove.entries.reverse_perm.symm.map Entry.plain
  obtain ⟨⟨t, ht, same⟩, -⟩ := same_of_perm h perm [("Tree", "grows")]
  exact ⟨h, perm, t, ht, same, same.isEmpty_iff.mpr (by decide)⟩

def blurred : Schema :=
  .of [⟨.constructor, "point", 1, .named "Point" false, [],
    [⟨"x", .int, none⟩, ⟨"x", .string, none⟩], none⟩] [] rfl

/-- A schema of which two arguments share a name differs from itself. -/
theorem not_isEmpty_blurred :
    Schema.parse none "point#1 x:int x:string = Point;" = .ok blurred ∧
      Schema.ofEntries blurred.entries [] = .ok blurred ∧
      (schemas blurred blurred).isEmpty = false ∧
      ∃ e ∈ blurred.entries, (entry e e).arguments ≠ none := by
  have read : Schema.parse none "point#1 x:int x:string = Point;" = .ok blurred := by
    decide +kernel
  exact ⟨read, Schema.ofEntries_of _ _ rfl, by decide, by decide⟩

end Diff

end TypeLang
