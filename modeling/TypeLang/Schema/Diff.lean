import TypeLang.Schema.Basic

namespace TypeLang

open Decl

structure Change (α : Type) where
  old : α
  new : α
  deriving DecidableEq, Repr

def Change.between? {α : Type} [DecidableEq α] (old new : α) : Option (Change α) :=
  if old = new then none else some ⟨old, new⟩

/-- Items that are only new, items that are only old, and changes of items that are both. -/
structure Changes (α μ : Type) where
  added : List α
  removed : List α
  modified : List μ
  deriving DecidableEq, Repr

def Changes.isEmpty {α μ : Type} (c : Changes α μ) : Bool :=
  c.added.isEmpty && c.removed.isEmpty && c.modified.isEmpty

structure ArgumentDiff where
  name : String
  type : Option (Change Ty)
  guard : Option (Change (Option FlagBit))
  deriving DecidableEq

structure EntryDiff where
  name : String
  id : Option (Change UInt32)
  type : Option (Change Ty)
  generics : Option (Change (List Generic))
  arguments : Option (Changes Argument ArgumentDiff)
  comment : Option (Change (Option String))
  deriving DecidableEq

/-- A change of the comment alone does not modify an entry. -/
def EntryDiff.isModified (d : EntryDiff) : Bool :=
  d.id.isSome || d.type.isSome || d.generics.isSome || d.arguments.isSome

structure UnionDiff where
  name : String
  added : List String
  removed : List String
  deriving DecidableEq, Repr

structure SchemaDiff where
  constructors : Changes Entry EntryDiff
  methods : Changes Entry EntryDiff
  unions : Changes Union UnionDiff
  deriving DecidableEq

def SchemaDiff.isEmpty (d : SchemaDiff) : Bool :=
  d.constructors.isEmpty && d.methods.isEmpty && d.unions.isEmpty

namespace Diff

/-- The last argument of a name stands for all of that name. -/
def lastArgument? (arguments : List Argument) (name : String) : Option Argument :=
  arguments.reverse.find? (·.name = name)

def argument? (old new : Argument) : Option ArgumentDiff :=
  let d : ArgumentDiff :=
    ⟨new.name, Change.between? old.type new.type, Change.between? old.guard new.guard⟩
  if d.type.isSome || d.guard.isSome then some d else none

/-- Arguments are matched by name, so that their order does not count. -/
def arguments (old new : List Argument) : Changes Argument ArgumentDiff where
  added := new.filter fun a => (lastArgument? old a.name).isNone
  removed := old.filter fun a => new.all (·.name ≠ a.name)
  modified := new.filterMap fun a => (lastArgument? old a.name).bind (argument? · a)

def entry (old new : Entry) : EntryDiff :=
  let arguments := arguments old.arguments new.arguments
  { name := new.name
    id := Change.between? old.id new.id
    type := Change.between? old.type new.type
    generics := Change.between? old.generics new.generics
    arguments := if arguments.isEmpty then none else some arguments
    comment := Change.between? old.comment new.comment }

def entryChange? (old new : Entry) : Option EntryDiff :=
  let d := entry old new
  if d.isModified then some d else none

def entries (old new : Schema) (kind : Kind) : Changes Entry EntryDiff where
  added := new.entries.filter fun e => e.kind = kind && (old.find? kind e.name).isNone
  removed := old.entries.filter fun e => e.kind = kind && (new.find? kind e.name).isNone
  modified := (old.entries.filter (·.kind = kind)).filterMap fun e =>
    (new.find? kind e.name).bind (entryChange? e)

def union? (old new : Union) : Option UnionDiff :=
  let added := new.members.filter fun m => !old.members.contains m
  let removed := old.members.filter fun m => !new.members.contains m
  if added.isEmpty && removed.isEmpty then none else some ⟨old.name, added, removed⟩

def unions (old new : Schema) : Changes Union UnionDiff where
  added := new.unions.filter fun u => (old.union? u.name).isNone
  removed := old.unions.filter fun u => (new.union? u.name).isNone
  modified := old.unions.filterMap fun u => (new.union? u.name).bind (union? u)

def schemas (old new : Schema) : SchemaDiff where
  constructors := entries old new .constructor
  methods := entries old new .method
  unions := unions old new

def tally {α μ : Type} (c : Changes α μ) : String :=
  s!"+{c.added.length}/-{c.removed.length}/~{c.modified.length}"

def schemasLog (d : SchemaDiff) : Log :=
  [⟨.debug, .diff, s!"[tl-schema] diff: classes {tally d.constructors}, methods {tally d.methods}, unions {tally d.unions}"⟩]

end Diff

end TypeLang
