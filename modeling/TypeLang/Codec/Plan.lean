import TypeLang.Schema.Basic

namespace TypeLang

open Decl

inductive Layout : Type
  | int
  | long
  | int128
  | int256
  | double
  | string
  | bytes
  | bool
  /-- An id and the body behind it. The id has to be of a member of the union, if one is given. -/
  | boxed (union : Option String)
  /-- The body of the constructor with an id, but without that id. -/
  | bare (target : UInt32)
  | vector (elem : Layout) (boxed : Bool)
  | generic
  deriving DecidableEq, Repr

/-- A bit of one of the flags words of an entry, which are counted from 0. -/
structure Gate where
  slot : Nat
  bit : Nat
  deriving DecidableEq, Repr

abbrev Words := List UInt32

namespace Gate

def isSet? (g : Gate) (words : Words) : Option Bool :=
  words[g.slot]?.map fun w => w.toNat.testBit g.bit

def set? (g : Gate) (words : Words) : Option Words :=
  words[g.slot]?.map fun w => words.set g.slot (w ||| (1 <<< UInt32.ofNat g.bit))

end Gate

inductive Role : Type
  /-- A flags word, which follows from the arguments that hang on it. -/
  | flags (slot : Nat)
  /-- An argument that is there or not and has no bytes of its own. -/
  | presence (gate : Option Gate)
  | value (layout : Layout) (gate : Option Gate)
  deriving DecidableEq, Repr

structure FieldPlan where
  name : String
  type : Ty
  role : Role
  deriving DecidableEq, Repr

structure Plan where
  id : UInt32
  name : String
  kind : Kind
  union : Option String
  fields : List FieldPlan
  flagsWords : Nat
  result : Option Layout
  deriving DecidableEq, Repr

def Plan.fieldNames (p : Plan) : List String :=
  (p.fields.filter fun f =>
    match f.role with
    | .flags _ => false
    | _ => true).map (·.name)

inductive PlanFault.Reason : Type
  | undeclaredFlags (argument flags : String)
  | bitOutOfRange (argument : String) (bit : Nat)
  | guardedFlags (argument : String)
  | onlyArgument (type : Ty)
  | unknownMember (union member : String)
  | ambiguousBare (union : String) (members : Nat)
  | unknownBare (name : String)
  deriving DecidableEq, Repr

structure PlanFault where
  entry : String
  reason : PlanFault.Reason
  deriving DecidableEq, Repr

def PlanFault.Reason.message : PlanFault.Reason → String
  | .undeclaredFlags argument flags => s!"`{argument}` refers to undeclared flags `{flags}`"
  | .bitOutOfRange argument bit => s!"`{argument}` uses flag bit {bit}"
  | .guardedFlags argument => s!"flags field `{argument}` cannot be optional"
  | .onlyArgument type => s!"`{type.render}` is only valid as an argument"
  | .unknownMember union member => s!"union `{union}` lists unknown class `{member}`"
  | .ambiguousBare union members =>
    s!"bare `%{union}` is ambiguous: the union has {members} constructors"
  | .unknownBare name => s!"bare reference to unknown type `{name}`"

def PlanFault.message (f : PlanFault) : String :=
  s!"cannot build codec for `{f.entry}`: {f.reason.message}"

namespace Plan

/-- The constructor that a bare type means: the one of that name, or else the only member of the
union of that name. -/
def bareTarget (s : Schema) (name : String) : Except PlanFault.Reason UInt32 :=
  match s.find? .constructor name with
  | some e => .ok e.id
  | none =>
    match s.union? name with
    | none => .error (.unknownBare name)
    | some u =>
      match u.members with
      | [member] =>
        match s.find? .constructor member with
        | some e => .ok e.id
        | none => .error (.unknownMember name member)
      | members => .error (.ambiguousBare name members.length)

def layout (s : Schema) : Ty → Except PlanFault.Reason Layout
  | .int => .ok .int
  | .long => .ok .long
  | .int128 => .ok .int128
  | .int256 => .ok .int256
  | .double => .ok .double
  | .string => .ok .string
  | .bytes => .ok .bytes
  | .bool => .ok .bool
  | .presence => .error (.onlyArgument .presence)
  | .flags => .error (.onlyArgument .flags)
  | .named name false => .ok (.boxed ((s.union? name).map (·.name)))
  | .named name true => (bareTarget s name).map .bare
  | .vector elem boxed => (layout s elem).map (.vector · boxed)
  | .generic _ => .ok .generic

def gate (slots : Dict Nat) (a : Argument) : Except PlanFault.Reason (Option Gate) :=
  match a.guard with
  | none => .ok none
  | some g =>
    match slots.get? g.flags with
    | none => .error (.undeclaredFlags a.name g.flags)
    | some slot =>
      if 32 ≤ g.bit then .error (.bitOutOfRange a.name g.bit) else .ok (some ⟨slot, g.bit⟩)

/-- The plans of arguments behind flags words with the given slots, and the number of all flags
words. A flags word of a name that is not new fills the last slot again. -/
def fieldPlans (s : Schema) (slots : Dict Nat) :
    List Argument → Except PlanFault.Reason (List FieldPlan × Nat)
  | [] => .ok ([], slots.length)
  | a :: rest => do
    let gate ← gate slots a
    let (role, slots) ← match a.type with
      | .flags =>
        if gate.isSome then throw (.guardedFlags a.name)
        else
          let slots := Dict.insert a.name slots.length slots
          pure (Role.flags (slots.length - 1), slots)
      | .presence => pure (.presence gate, slots)
      | type => do pure (.value (← layout s type) gate, slots)
    let (fields, words) ← fieldPlans s slots rest
    return (⟨a.name, a.type, role⟩ :: fields, words)

def resultLayout (s : Schema) (e : Entry) : Except PlanFault.Reason (Option Layout) :=
  match e.kind with
  | .constructor => .ok none
  | .method => (layout s e.type).map some

def ofEntry (s : Schema) (e : Entry) : Except PlanFault Plan :=
  Except.mapError (⟨e.name, ·⟩) do
    let (fields, flagsWords) ← fieldPlans s [] e.arguments
    let result ← resultLayout s e
    return {
      id := e.id
      name := e.name
      kind := e.kind
      union := e.unionName?
      fields
      flagsWords
      result }

end Plan

end TypeLang
