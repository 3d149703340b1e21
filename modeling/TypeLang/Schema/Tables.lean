import TypeLang.Dict
import TypeLang.Log
import TypeLang.Schema.Entry
import TypeLang.Schema.Index

/-!
The tables of a schema: its entries, the unions that its constructors form, and the indexes by which
both are found. Entries are entered one after the other, each into all of the tables.
-/

namespace TypeLang

open Decl

structure Union where
  name : String
  members : List String
  comment : Option String
  deriving DecidableEq, Repr

def Union.add (member : String) (u : Union) : Union := { u with members := u.members ++ [member] }

structure Tables where
  entries : List Entry := []
  byId : Index UInt32 := []
  constructors : Index String := []
  methods : Index String := []
  unions : List Union := []
  unionIndex : Index String := []
  deriving DecidableEq, Repr

def Argument.guardFault? (before : List Argument) (a : Argument) : Option (FlagBit × GuardFault) :=
  match a.guard with
  | none => none
  | some g =>
    if a.type = .flags then some (g, .onFlags)
    else if 32 ≤ g.bit then some (g, .bitOutOfRange)
    else if before.any fun b => b.name = g.flags && b.type = .flags then none
    else some (g, .undeclared)

namespace Entry

def guardFaultAfter? (entry : String) (before : List Argument) :
    List Argument → Option SchemaFault
  | [] => none
  | a :: rest =>
    match a.guardFault? before with
    | some (g, fault) => some (.guard entry a.name g fault)
    | none => guardFaultAfter? entry (before ++ [a]) rest

def guardFault? (e : Entry) : Option SchemaFault :=
  guardFaultAfter? e.name [] e.arguments

def nameAs? (kind : Kind) (e : Entry) : Option String :=
  if e.kind = kind then some e.name else none

end Entry

namespace Tables

def names (t : Tables) : Kind → Index String
  | .constructor => t.constructors
  | .method => t.methods

def entryById? (t : Tables) (id : UInt32) : Option Entry :=
  (t.byId.get? id).bind (t.entries[·]?)

def find? (t : Tables) (kind : Kind) (name : String) : Option Entry :=
  ((t.names kind).get? name).bind (t.entries[·]?)

def union? (t : Tables) (name : String) : Option Union :=
  (t.unionIndex.get? name).bind (t.unions[·]?)

def addName (t : Tables) (e : Entry) : Tables :=
  match e.kind with
  | .constructor => { t with constructors := t.constructors.insert e.name t.entries.length }
  | .method => { t with methods := t.methods.insert e.name t.entries.length }

/-- Enters a constructor into its union. A union that is not there yet begins behind the others. -/
def addMember (comments : Dict String) (t : Tables) (e : Entry) : Tables :=
  match e.unionName? with
  | none => t
  | some name =>
    match t.unionIndex.get? name with
    | some slot => { t with unions := t.unions.modify slot (·.add e.name) }
    | none =>
      { t with
        unions := t.unions ++ [⟨name, [e.name], comments.get? name⟩]
        unionIndex := t.unionIndex.insert name t.unions.length }

def enter (comments : Dict String) (t : Tables) (e : Entry) : Tables :=
  let t' := (t.addName e).addMember comments e
  { t' with
    entries := t.entries ++ [e]
    byId := t.byId.insert e.id t.entries.length }

/-- An entry is not entered if its id is taken, one of its guards is bad, or its name is taken,
looked at in this order. -/
def push (comments : Dict String) (t : Tables) (e : Entry) : Except SchemaFault Tables :=
  match t.entryById? e.id with
  | some first => .error (.duplicateId e.id first.name e.name)
  | none =>
    match e.guardFault? with
    | some fault => .error fault
    | none =>
      match (t.names e.kind).get? e.name with
      | some _ => .error (.duplicateName e.kind e.name)
      | none => .ok (t.enter comments e)

def build (comments : Dict String) (entries : List Entry) : Except SchemaFault Tables :=
  entries.foldlM (push comments) {}

def idleFlagsLog (e : Entry) : Log :=
  (e.arguments.filter fun a =>
      a.type = .flags && e.arguments.all fun b => b.guard.all (·.flags ≠ a.name)).map fun a =>
    ⟨.warn, .schema, s!"[tl-schema] `{e.name}`: flags field `{a.name}` gates nothing"⟩

def buildLog (t : Tables) : List Entry → Log
  | [] => [⟨.debug, .schema, s!"[tl-schema] built schema: {t.constructors.length} classes, {t.methods.length} methods, {t.unions.length} unions"⟩]
  | e :: rest =>
    match t.push [] e with
    | .error _ => []
    | .ok t => idleFlagsLog e ++ buildLog t rest

end Tables

end TypeLang
