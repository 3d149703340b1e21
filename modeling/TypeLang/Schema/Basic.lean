import TypeLang.Schema.Indexed

namespace TypeLang

open Decl

structure Schema extends Tables where
  indexed : toTables.Indexed
  deriving DecidableEq, Repr

namespace Schema

/-- The schema of the given entries. Its unions take their comments from `comments`. -/
def ofEntries (entries : List Entry) (comments : Dict String) : Except SchemaFault Schema :=
  match h : Tables.build comments entries with
  | .error fault => .error fault
  | .ok t => .ok ⟨t, .build h⟩

def ofDecls (decls : List Decl) : Except SchemaFault Schema := do
  ofEntries (← decls.mapM Entry.ofDecl) []

def unionMembers (s : Schema) (name : String) : List Entry :=
  match s.union? name with
  | none => []
  | some u => u.members.filterMap (s.find? .constructor)

def unionComments (s : Schema) : Dict String :=
  Dict.ofList (s.unions.filterMap fun u => u.comment.map (u.name, ·))

def ofEntriesLog (entries : List Entry) : Log := Tables.buildLog {} entries

end Schema

end TypeLang
