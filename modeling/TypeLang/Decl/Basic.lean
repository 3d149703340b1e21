import TypeLang.Decl.Param
import TypeLang.Kind

namespace TypeLang

open Text

structure Decl where
  space : List String
  name : String
  id : UInt32
  generics : List Decl.Generic
  params : List Decl.Param
  /-- The type of a constructor, the result of a method. -/
  type : Decl.TypeExpr
  kind : Kind
  comment : Option String
  deriving DecidableEq, Repr

namespace Decl

/-- How a declaration without an id gets one from its text, if it may lack one at all. -/
abbrev IdRule := Option (List Char → UInt32)

def fullName (d : Decl) : String := dotted d.space d.name

def renderGenerics (generics : List Generic) : String :=
  if generics.isEmpty then ""
  else " \x7b" ++ ",".intercalate (generics.map Generic.render) ++ "\x7d"

/-- The mark `!` of the result is not written: it follows from the generics. -/
def render (d : Decl) : String :=
  d.fullName ++ "#" ++ hex8 d.id ++ renderGenerics d.generics
    ++ String.join (d.params.map fun p => " " ++ p.render)
    ++ " = " ++ (d.type.mapHead fun h => { h with placeholder := false }).render ++ ";"

def declared (generics : List Generic) (params : List Param) (p : Param) : Bool :=
  match p.type with
  | .flags => true
  | .value type guard =>
    guard.all (fun f => params.any fun q => q.type = .flags && q.name = f.flags)
      && type.placeholders.all fun x => generics.any (·.name = x)

def readTokens (generics : List Generic) (params : List Param) :
    List (List Char) → Except TokenFault (List Generic × List Param)
  | [] => .ok (generics, params)
  | token :: rest =>
    if token.head? = some '\x7b' then do
      let more ← Generic.readList token
      readTokens (generics ++ more) params rest
    else do
      let p ← Param.read token
      if declared generics params p then readTokens generics (params ++ [p]) rest
      else .error .undeclared

/-- The id written behind the name, or else the one that the rule gives to the whole text. -/
def readId (rule : IdRule) (text : List Char) : Option (List Char) → Except Fault UInt32
  | some hex =>
    match readNat 16 UInt32.size hex with
    | .ok n => .ok (UInt32.ofNat n)
    | .error cause => .error (.badId cause)
  | none =>
    match rule with
    | some hash => .ok (hash text)
    | none => .error .noId

/-- A result that is named like a generic refers to it. -/
def markResult (generics : List Generic) (type : TypeExpr) : TypeExpr :=
  if generics.any (·.name = type.head.name) then
    type.mapHead fun h => { h with placeholder := true }
  else type

def body (cs : List Char) : List Char :=
  trim (dropEndWhile (· = ';') (trim cs))

/-- Reads one declaration, as a constructor without a comment. The result is read before the name,
the name before the id, the id before the tokens. -/
def read (rule : IdRule) (cs : List Char) : Except Fault Decl :=
  let text := body cs
  if text.isEmpty then .error .empty
  else match cut? '=' text with
    | none => .error .noType
    | some (left, right) =>
      match TypeExpr.read (trim right) with
      | .error _ => .error .noType
      | .ok type =>
        match words left with
        | [] => .error .noName
        | head :: tokens =>
          let (dottedName, hex?) :=
            match cut? '#' head with
            | none => (head, none)
            | some (front, hex) => (front, some hex)
          match readDotted? dottedName with
          | none => .error .noName
          | some (space, name) => do
            let id ← readId rule text hex?
            let (generics, params) ← (readTokens [] [] tokens).mapError Fault.ofToken
            return {
              space, name, id, generics, params
              type := markResult generics type
              kind := .constructor
              comment := none }

def parse (rule : IdRule) (text : String) : Except Fault Decl := read rule text.toList

end Decl

end TypeLang
