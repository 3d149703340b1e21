import TypeLang.Decl.Basic
import TypeLang.Schema.Fault

namespace TypeLang

open Decl

structure Argument where
  name : String
  type : Ty
  guard : Option FlagBit
  deriving DecidableEq, Repr

def Argument.render (a : Argument) : String :=
  a.name ++ ":" ++ (a.guard.elim "" fun g => g.render ++ "?") ++ a.type.render

structure Entry where
  kind : Kind
  name : String
  id : UInt32
  /-- The union of a constructor, the result of a method. -/
  type : Ty
  generics : List Generic
  arguments : List Argument
  comment : Option String
  deriving DecidableEq, Repr

/-- A dotted name as everything before its last point, and the rest. -/
def splitName (name : String) : String × String :=
  let parts := Text.pieces (· = '.') name.toList
  (String.ofList (Text.join ['.'] parts.dropLast), String.ofList (parts.getLast?.getD []))

namespace Entry

def argumentOfParam (p : Param) : Except TypeFault Argument :=
  match p.type with
  | .flags => .ok ⟨p.name, .flags, none⟩
  | .value type guard => (Ty.ofExpr type).map fun ty => ⟨p.name, ty, guard⟩

/-- Resolves the types of a declaration, the arguments before the result. -/
def ofDecl (d : Decl) : Except SchemaFault Entry :=
  Except.mapError (SchemaFault.type d.fullName) do
    let arguments ← d.params.mapM argumentOfParam
    let type ← Ty.ofExpr d.type
    return {
      kind := d.kind
      name := d.fullName
      id := d.id
      type
      generics := d.generics
      arguments
      comment := d.comment }

def space (e : Entry) : String := (splitName e.name).1

def localName (e : Entry) : String := (splitName e.name).2

def unionName? (e : Entry) : Option String :=
  match e.kind with
  | .method => none
  | .constructor =>
    match e.type with
    | .named name _ => some name
    | other => some other.render

def argument? (e : Entry) (name : String) : Option Argument :=
  e.arguments.find? (·.name = name)

/-- The mark `!` of the result is not written: it follows from the generics. -/
def render (e : Entry) : String :=
  let result :=
    match e.type with
    | .generic name => name
    | other => other.render
  e.name ++ "#" ++ Text.hex8 e.id ++ renderGenerics e.generics
    ++ String.join (e.arguments.map fun a => " " ++ a.render) ++ " = " ++ result ++ ";"

inductive Part : Type
  | kind
  | name
  | id
  | type
  | generics
  | arguments
  deriving DecidableEq, Repr

def Part.title : Part → String
  | .kind => "kind"
  | .name => "name"
  | .id => "id"
  | .type => "type"
  | .generics => "generics"
  | .arguments => "arguments"

/-- The first part in which two definitions differ. Comments do not count. -/
def difference? (a b : Entry) : Option Part :=
  if a.kind ≠ b.kind then some .kind
  else if a.name ≠ b.name then some .name
  else if a.id ≠ b.id then some .id
  else if a.type ≠ b.type then some .type
  else if a.generics ≠ b.generics then some .generics
  else if a.arguments ≠ b.arguments then some .arguments
  else none

def sameDefinition (a b : Entry) : Bool := (a.difference? b).isNone

end Entry

end TypeLang
