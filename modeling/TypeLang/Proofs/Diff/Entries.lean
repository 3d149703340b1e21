import Mathlib.Data.Multiset.Defs
import TypeLang.Proofs.Diff.Matching
import TypeLang.Proofs.Schema.Rebuild

namespace TypeLang

open Decl

namespace Change

def onto {α : Type} (c : Option (Change α)) (a : α) : α := c.elim a (·.new)

variable {α : Type} [DecidableEq α] {a b : α}

@[simp] theorem between?_eq_none_iff : between? a b = none ↔ a = b := by
  rw [between?]
  split
  · next h => simp [h]
  · next h => simp [h]

@[simp] theorem onto_between? : onto (between? a b) a = b := by
  rw [between?]
  split
  · next h => exact h
  · rfl

end Change

def ArgumentDiff.amend (d : ArgumentDiff) (a : Argument) : Argument :=
  { a with type := Change.onto d.type a.type, guard := Change.onto d.guard a.guard }

/-- Arguments are matched by their names, and everything about them counts. -/
def Matching.arguments : Matching Argument ArgumentDiff String Argument where
  key a := a.name
  title d := d.name
  change? := Diff.argument?
  amend := ArgumentDiff.amend
  shape a := a

namespace Diff

theorem argument?_eq_none_iff {a b : Argument} (h : a.name = b.name) :
    argument? a b = none ↔ a = b := by
  obtain ⟨name, type, guard⟩ := a
  obtain ⟨name', type', guard'⟩ := b
  obtain rfl : name = name' := h
  simp [argument?]

theorem amend_of_argument? {a b : Argument} (h : a.name = b.name) {d : ArgumentDiff}
    (hd : argument? a b = some d) : d.name = b.name ∧ d.amend a = b := by
  obtain ⟨name, type, guard⟩ := a
  obtain ⟨name', type', guard'⟩ := b
  obtain rfl : name = name' := h
  simp only [argument?, Option.ite_none_right_eq_some, Option.some.injEq] at hd
  obtain ⟨-, rfl⟩ := hd
  simp [ArgumentDiff.amend]

theorem lawful_arguments (old new : List Argument) : Matching.arguments.Lawful old new where
  keyed _ _ h := congrArg Argument.name h
  change?_eq_none _ _ _ _ h := argument?_eq_none_iff h
  amend _ _ _ _ h _ hd := amend_of_argument? h hd

theorem lastArgument?_eq_some_iff {arguments : List Argument}
    (h : (arguments.map (·.name)).Nodup) {name : String} {a : Argument} :
    lastArgument? arguments name = some a ↔ a ∈ arguments ∧ a.name = name := by
  have reversed : (arguments.reverse.map (·.name)).Nodup := by
    rwa [List.map_reverse, List.nodup_reverse]
  rw [lastArgument?, find?_eq_some_iff_of_nodup reversed, List.mem_reverse]

theorem compares_arguments {old : List Argument} (h : (old.map (·.name)).Nodup)
    (new : List Argument) : Matching.arguments.Compares old new (arguments old new) where
  added := Matching.filter_isNone (fun _ _ => lastArgument?_eq_some_iff h) new
  removed := by
    refine List.filter_congr fun a _ => ?_
    rw [Bool.eq_iff_iff]
    simp [Matching.arguments]
  modified d := by
    simp only [arguments, List.mem_filterMap, Option.bind_eq_some_iff, lastArgument?_eq_some_iff h]
    constructor
    · rintro ⟨b, hb, a, ⟨ha, hk⟩, hd⟩
      exact ⟨a, ha, b, hb, hk, hd⟩
    · rintro ⟨a, ha, b, hb, hk, hd⟩
      exact ⟨b, hb, a, ⟨ha, hk⟩, hd⟩

end Diff

/-- What of an entry counts for a diff: all but the comment and the order of the arguments. -/
structure Entry.Shape where
  kind : Kind
  name : String
  id : UInt32
  type : Ty
  generics : List Generic
  arguments : Multiset Argument
  deriving DecidableEq

def Entry.shape (e : Entry) : Entry.Shape :=
  ⟨e.kind, e.name, e.id, e.type, e.generics, e.arguments⟩

def EntryDiff.amend (d : EntryDiff) (e : Entry) : Entry :=
  { e with
    id := Change.onto d.id e.id
    type := Change.onto d.type e.type
    generics := Change.onto d.generics e.generics
    arguments := d.arguments.elim e.arguments (Matching.arguments.replay · e.arguments)
    comment := Change.onto d.comment e.comment }

theorem EntryDiff.isModified_eq_false_iff {d : EntryDiff} : d.isModified = false ↔
    d.id = none ∧ d.type = none ∧ d.generics = none ∧ d.arguments = none := by
  simp [isModified, and_assoc]

def Matching.entries : Matching Entry EntryDiff String Entry.Shape where
  key e := e.name
  title d := d.name
  change? := Diff.entryChange?
  amend := EntryDiff.amend
  shape := Entry.shape

namespace Diff

theorem entryChange?_eq_none {a b : Entry} :
    entryChange? a b = none ↔ (entry a b).isModified = false := by
  simp [entryChange?]

section

variable {a b : Entry} (ha : (a.arguments.map (·.name)).Nodup)
  (hb : (b.arguments.map (·.name)).Nodup)

include ha hb

theorem arguments_isEmpty_iff : (arguments a.arguments b.arguments).isEmpty ↔
    (a.arguments : Multiset Argument) = b.arguments := by
  rw [Matching.isEmpty_iff (lawful_arguments _ _) (compares_arguments ha _) ha hb,
    Multiset.coe_eq_coe]
  exact iff_of_eq (congrArg₂ _ (List.map_id _) (List.map_id _))

theorem replay_arguments :
    ((Matching.arguments.replay (arguments a.arguments b.arguments) a.arguments :) :
      Multiset Argument) = b.arguments := by
  have perm := Matching.replay_perm (lawful_arguments _ _) (compares_arguments ha b.arguments) ha hb
  rw [Multiset.coe_eq_coe]
  exact (List.map_id _ ▸ List.map_id _ ▸ perm :)

theorem entryChange?_eq_none_iff (hk : a.kind = b.kind) (hn : a.name = b.name) :
    entryChange? a b = none ↔ a.shape = b.shape := by
  have same : (entry a b).arguments = none ↔ (a.arguments : Multiset Argument) = b.arguments := by
    simp [entry, ← arguments_isEmpty_iff ha hb]
  rw [entryChange?_eq_none, EntryDiff.isModified_eq_false_iff, same]
  simp [entry, Entry.shape, hk, hn]

theorem amend_of_entryChange? (hk : a.kind = b.kind) (hn : a.name = b.name) {d : EntryDiff}
    (hd : entryChange? a b = some d) : d.name = b.name ∧ (d.amend a).shape = b.shape := by
  simp only [entryChange?, Option.ite_none_right_eq_some, Option.some.injEq] at hd
  obtain ⟨-, rfl⟩ := hd
  have same : ((EntryDiff.amend (entry a b) a).arguments : Multiset Argument) = b.arguments := by
    simp only [EntryDiff.amend, entry]
    split
    · next h => exact (arguments_isEmpty_iff ha hb).mp h
    · exact replay_arguments ha hb
  refine ⟨rfl, ?_⟩
  rw [Entry.shape, same]
  simp [Entry.shape, EntryDiff.amend, entry, hk, hn]

end

theorem lawful_entries {kind : Kind} {old new : List Entry} (ho : ∀ e ∈ old, e.kind = kind)
    (hn : ∀ e ∈ new, e.kind = kind)
    (names : ∀ e ∈ old ++ new, (e.arguments.map (·.name)).Nodup) :
    Matching.entries.Lawful old new where
  keyed _ _ h := congrArg Entry.Shape.name h
  change?_eq_none a ha b hb h := entryChange?_eq_none_iff (names a (List.mem_append_left _ ha))
    (names b (List.mem_append_right _ hb)) ((ho a ha).trans (hn b hb).symm) h
  amend a ha b hb h _ hd := amend_of_entryChange? (names a (List.mem_append_left _ ha))
    (names b (List.mem_append_right _ hb)) ((ho a ha).trans (hn b hb).symm) h hd

end Diff

def Schema.ofKind (s : Schema) (kind : Kind) : List Entry := s.entries.filter (·.kind = kind)

namespace Schema

variable {s : Schema} {kind : Kind} {e : Entry}

theorem mem_ofKind : e ∈ s.ofKind kind ↔ e ∈ s.entries ∧ e.kind = kind := by
  simp [ofKind]

theorem names_ofKind (s : Schema) (kind : Kind) : ((s.ofKind kind).map (·.name)).Nodup := by
  refine List.Nodup.map_on (fun a ha b hb hn => ?_) (s.keys_nodup.of_map _ |>.filter _)
  obtain ⟨hma, hka⟩ := mem_ofKind.mp ha
  obtain ⟨hmb, hkb⟩ := mem_ofKind.mp hb
  exact List.inj_on_of_nodup_map s.keys_nodup hma hmb (Prod.ext (hka.trans hkb.symm) hn)

theorem find?_eq_some_iff_ofKind {name : String} :
    s.find? kind name = some e ↔ e ∈ s.ofKind kind ∧ e.name = name := by
  rw [find?_eq_some_iff, mem_ofKind, Entry.key, Prod.mk.injEq, and_assoc]

end Schema

namespace Diff

theorem compares_entries (old new : Schema) (kind : Kind) :
    Matching.entries.Compares (old.ofKind kind) (new.ofKind kind) (entries old new kind) := by
  refine Matching.compares_of_find (fun _ _ => Schema.find?_eq_some_iff_ofKind)
    (fun _ _ => Schema.find?_eq_some_iff_ofKind) ?_ ?_ rfl
  · rw [Schema.ofKind, List.filter_filter]
    exact List.filter_congr fun e _ => Bool.and_comm _ _
  · rw [Schema.ofKind, List.filter_filter]
    exact List.filter_congr fun e _ => Bool.and_comm _ _

end Diff

end TypeLang
