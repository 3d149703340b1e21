import TypeLang.Decimal.Layout
import TypeLang.Json.Tree
import TypeLang.Text.Nested
import TypeLang.Text.Quoted
import TypeLang.Value.Basic

namespace TypeLang.Value

open Text Json

/-- On one line, doubles are always positional, and whole ones show no fraction. -/
def lineLayout : Decimal.Layout := ⟨.up, none, "", ""⟩

/-- In full, doubles are positional from 1e-4 up to below 1e16. -/
def fullLayout : Decimal.Layout := ⟨.up, some (-4, 15), ".0", ""⟩

/-- In JSON, doubles are positional from 1e-5 up to below 1e16, and an exponent has a sign. -/
def jsonLayout : Decimal.Layout := ⟨.even, some (-5, 15), ".0", "+"⟩

def hex (b : ByteArray) : String := String.ofList (b.toList.flatMap hex2)

mutual
def render : Value → String
  | .int n => toString n.toInt
  | .long n => toString n.toInt
  | .int128 b => hex b.val
  | .int256 b => hex b.val
  | .double d => d.render lineLayout
  | .string s => showString s
  | .bytes b | .raw b => "0x" ++ hex b
  | .bool b => if b then "true" else "false"
  | .vector items => "[" ++ ", ".intercalate (renderItems items) ++ "]"
  | .object name [] => name
  | .object name fields => name ++ " \x7b " ++ ", ".intercalate (renderFields fields) ++ " \x7d"
def renderItems : List Value → List String
  | [] => []
  | v :: rest => v.render :: renderItems rest
def renderFields : List (String × Value) → List String
  | [] => []
  | (name, v) :: rest => (name ++ ": " ++ v.render) :: renderFields rest
end

def tagged (tag : String) (t : Nested) : Nested := .group (tag ++ "(") ")" [("", t)]

def nestedBytes (b : ByteArray) : Nested :=
  .group "[" "]" (b.toList.map fun x => ("", .text (toString x.toNat)))

mutual
def toNested : Value → Nested
  | .int n => tagged "Int" (.text (toString n.toInt))
  | .long n => tagged "Long" (.text (toString n.toInt))
  | .int128 b => tagged "Int128" (nestedBytes b.val)
  | .int256 b => tagged "Int256" (nestedBytes b.val)
  | .double d => tagged "Double" (.text (d.render fullLayout))
  | .string s => tagged "String" (.text (showString s))
  | .bytes b => tagged "Bytes" (nestedBytes b)
  | .bool b => tagged "Bool" (.text (if b then "true" else "false"))
  | .vector items => tagged "Vector" (.group "[" "]" (nestedItems items))
  | .object name fields =>
    tagged "Object" (.group "Object \x7b" "\x7d"
      [("name: ", .text (showString name)),
       ("fields: ", .group "\x7b" "\x7d" (nestedFields fields))])
  | .raw b => tagged "Raw" (nestedBytes b)
def nestedItems : List Value → List (String × Nested)
  | [] => []
  | v :: rest => ("", v.toNested) :: nestedItems rest
def nestedFields : List (String × Value) → List (String × Nested)
  | [] => []
  | (name, v) :: rest => (showString name ++ ": ", v.toNested) :: nestedFields rest
end

def renderFull (v : Value) : String := v.toNested.render

def treeBytes (b : ByteArray) : Tree := .array (b.toList.map fun x => .int x.toNat)

mutual
/-- The JSON form. An object comes with its name under `_`, ahead of its fields, and a double that
is not finite is null. -/
def toTree : Value → Tree
  | .int n => .int n.toInt
  | .long n => .int n.toInt
  | .int128 b => treeBytes b.val
  | .int256 b => treeBytes b.val
  | .double d => (d.renderFinite? jsonLayout).elim .null .decimal
  | .string s => .text s
  | .bytes b | .raw b => treeBytes b
  | .bool b => .bool b
  | .vector items => .array (treeItems items)
  | .object name fields => .object (("_", .text name) :: treeFields fields)
def treeItems : List Value → List Tree
  | [] => []
  | v :: rest => v.toTree :: treeItems rest
def treeFields : List (String × Value) → List (String × Tree)
  | [] => []
  | (name, v) :: rest => (name, v.toTree) :: treeFields rest
end

end TypeLang.Value
