import TypeLang.Json.Outline
import TypeLang.Json.Tree
import TypeLang.Schema.Diff
import TypeLang.Schema.Layered

namespace TypeLang

open Decl Json

structure Packed where
  layer : Int32
  entries : List Entry
  unionComments : Dict String
  deriving DecidableEq

namespace Packed

def pack (s : Layered) : Packed := ⟨s.layer, s.schema.entries, s.schema.unionComments⟩

def unpack (p : Packed) : Except SchemaFault Layered := do
  return ⟨p.layer, ← Schema.ofEntries p.entries p.unionComments⟩

end Packed

/- Writing -/

def optional (key : String) : Option Tree → List (String × Tree)
  | none => []
  | some t => [(key, t)]

def Decl.Generic.toTree (g : Generic) : Tree :=
  .object [("name", .text g.name), ("type", .text g.bound)]

def Argument.toTree (a : Argument) : Tree :=
  .object ([("name", .text a.name), ("type", .text a.type.render)]
    ++ optional "predicate" (a.guard.map fun g => .text g.render))

def Entry.toTree (e : Entry) : Tree :=
  .object ([("kind", .text e.kind.name), ("name", .text e.name), ("id", .int e.id.toNat),
      ("type", .text e.type.render)]
    ++ (if e.generics.isEmpty then [] else [("generics", .array (e.generics.map (·.toTree)))])
    ++ [("arguments", .array (e.arguments.map (·.toTree)))]
    ++ optional "comment" (e.comment.map .text))

def Union.toTree (u : Union) : Tree :=
  .object ([("name", .text u.name), ("classes", .array (u.members.map .text))]
    ++ optional "comment" (u.comment.map .text))

def Packed.toTree (p : Packed) : Tree :=
  .object [("layer", .int p.layer.toInt), ("entries", .array (p.entries.map (·.toTree))),
    ("unionComments", .object (p.unionComments.map fun (k, v) => (k, .text v)))]

def Packed.render (p : Packed) : String := p.toTree.pretty

def Change.toTree {α : Type} (f : α → Tree) (c : Change α) : Tree :=
  .object [("old", f c.old), ("new", f c.new)]

def Changes.toTree {α μ : Type} (f : α → Tree) (g : μ → Tree) (c : Changes α μ) : Tree :=
  .object [("added", .array (c.added.map f)), ("removed", .array (c.removed.map f)),
    ("modified", .array (c.modified.map g))]

def orNull {α : Type} (f : α → Tree) : Option α → Tree
  | none => .null
  | some a => f a

def ArgumentDiff.toTree (d : ArgumentDiff) : Tree :=
  .object ([("name", .text d.name)]
    ++ optional "type" (d.type.map (Change.toTree fun t => .text t.render))
    ++ optional "predicate" (d.guard.map (Change.toTree (orNull fun g => .text g.render))))

def EntryDiff.toTree (d : EntryDiff) : Tree :=
  .object ([("name", .text d.name)]
    ++ optional "id" (d.id.map (Change.toTree fun n => .int n.toNat))
    ++ optional "type" (d.type.map (Change.toTree fun t => .text t.render))
    ++ optional "generics" (d.generics.map (Change.toTree fun gs => .array (gs.map (·.toTree))))
    ++ optional "arguments" (d.arguments.map (Changes.toTree Argument.toTree ArgumentDiff.toTree))
    ++ optional "comment" (d.comment.map (Change.toTree (orNull .text))))

def UnionDiff.toTree (d : UnionDiff) : Tree :=
  .object [("name", .text d.name), ("added", .array (d.added.map .text)),
    ("removed", .array (d.removed.map .text))]

def SchemaDiff.toTree (d : SchemaDiff) : Tree :=
  .object [("classes", Changes.toTree Entry.toTree EntryDiff.toTree d.constructors),
    ("methods", Changes.toTree Entry.toTree EntryDiff.toTree d.methods),
    ("unions", Changes.toTree Union.toTree UnionDiff.toTree d.unions)]

/- Reading -/

def required {α : Type} : Option α → Except Json.Fault α
  | none => .error .mistyped
  | some a => .ok a

def Kind.ofName? : String → Option Kind
  | "class" => some .constructor
  | "method" => some .method
  | _ => none

def Ty.ofOutline (o : Outline) : Except Json.Fault Ty := do
  (Ty.parse (← o.readString)).mapError fun _ => .mistyped

def Decl.FlagBit.ofOutline (o : Outline) : Except Json.Fault FlagBit := do
  (FlagBit.parse (← o.readString)).mapError fun _ => .mistyped

structure Decl.Generic.Draft where
  name : Option String := none
  bound : Option String := none

def Decl.Generic.visit (key : String) (o : Outline) (d : Generic.Draft) :
    Except Json.Fault Generic.Draft := do
  match key with
  | "name" => return { d with name := some (← o.readString) }
  | _ => return { d with bound := some (← o.readString) }

def Decl.Generic.ofOutline (o : Outline) : Except Json.Fault Generic := do
  let d ← o.readRecord ["name", "type"] Generic.visit {}
  return { name := ← required d.name, bound := ← required d.bound }

structure Argument.Draft where
  name : Option String := none
  type : Option Ty := none
  guard : Option FlagBit := none

def Argument.visit (key : String) (o : Outline) (d : Argument.Draft) :
    Except Json.Fault Argument.Draft := do
  match key with
  | "name" => return { d with name := some (← o.readString) }
  | "type" => return { d with type := some (← Ty.ofOutline o) }
  | _ => return { d with guard := ← o.readOption FlagBit.ofOutline }

def Argument.ofOutline (o : Outline) : Except Json.Fault Argument := do
  let d ← o.readRecord ["name", "type", "predicate"] Argument.visit {}
  return { name := ← required d.name, type := ← required d.type, guard := d.guard }

structure Entry.Draft where
  kind : Option Kind := none
  name : Option String := none
  id : Option UInt32 := none
  type : Option Ty := none
  generics : List Generic := []
  arguments : Option (List Argument) := none
  comment : Option String := none

def Entry.visit (key : String) (o : Outline) (d : Entry.Draft) :
    Except Json.Fault Entry.Draft := do
  match key with
  | "kind" => return { d with kind := some (← o.readWordOf Kind.ofName?) }
  | "name" => return { d with name := some (← o.readString) }
  | "id" => return { d with id := some (UInt32.ofNat (← o.readInt 0 UInt32.size).toNat) }
  | "type" => return { d with type := some (← Ty.ofOutline o) }
  | "generics" => return { d with generics := ← o.readList Generic.ofOutline }
  | "arguments" => return { d with arguments := some (← o.readList Argument.ofOutline) }
  | _ => return { d with comment := ← o.readOption Outline.readString }

def Entry.ofOutline (o : Outline) : Except Json.Fault Entry := do
  let d ← o.readRecord ["kind", "name", "id", "type", "generics", "arguments", "comment"]
    Entry.visit {}
  return {
    kind := ← required d.kind, name := ← required d.name, id := ← required d.id
    type := ← required d.type, generics := d.generics, arguments := ← required d.arguments
    comment := d.comment }

structure Packed.Draft where
  layer : Option Int32 := none
  entries : Option (List Entry) := none
  unionComments : Dict String := []

def Packed.visit (key : String) (o : Outline) (d : Packed.Draft) :
    Except Json.Fault Packed.Draft := do
  match key with
  | "layer" => return { d with layer := some (Int32.ofInt (← o.readInt (-0x80000000) 0x80000000)) }
  | "entries" => return { d with entries := some (← o.readList Entry.ofOutline) }
  | _ => return { d with unionComments := Dict.ofList (← o.readPairs Outline.readString) }

def Packed.ofOutline (o : Outline) : Except Json.Fault Packed := do
  let d ← o.readRecord ["layer", "entries", "unionComments"] Packed.visit {}
  return {
    layer := ← required d.layer, entries := ← required d.entries
    unionComments := d.unionComments }

def Packed.parse (text : String) : Except Json.Fault Packed := do
  let document := Document.read text
  let p ← Packed.ofOutline document.root
  if document.trailing then .error .malformed
  return p

end TypeLang
