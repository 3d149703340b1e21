import TypeLang.Decl.Param

/-!
Types of arguments and results. Text leaves room for marks and arguments that mean nothing; a type
of the model is a built-in type, a named type, a vector or a generic.
-/

namespace TypeLang

open Decl

inductive Ty : Type
  | int
  | long
  | int128
  | int256
  | double
  | string
  | bytes
  | bool
  | presence
  | flags
  | named (name : String) (bare : Bool)
  | vector (elem : Ty) (boxed : Bool)
  | generic (name : String)
  deriving DecidableEq, Repr

inductive TypeFault.Reason : Type
  | argument
  | noElement
  | malformed
  | badGuard
  deriving DecidableEq, Repr

structure TypeFault where
  text : String
  reason : TypeFault.Reason
  deriving DecidableEq, Repr

def TypeFault.Reason.message : TypeFault.Reason → String
  | .argument => "only vectors take a type argument"
  | .noElement => "vector without element type"
  | .malformed => "malformed type expression"
  | .badGuard => "predicate must be `flags.N` with N < 32"

def TypeFault.message (f : TypeFault) : String :=
  s!"invalid type `{f.text}`: {f.reason.message}"

namespace Ty

def builtin? : String → Option Ty
  | "int" => some .int
  | "long" => some .long
  | "int128" => some .int128
  | "int256" => some .int256
  | "double" => some .double
  | "string" => some .string
  | "bytes" => some .bytes
  | "Bool" => some .bool
  | "true" => some .presence
  | _ => none

def isVectorName (name : String) : Bool := name = "Vector" || name = "vector"

def localPart (name : String) : String :=
  String.ofList ((Text.pieces (· = '.') name.toList).getLast?.getD [])

def render : Ty → String
  | .int => "int"
  | .long => "long"
  | .int128 => "int128"
  | .int256 => "int256"
  | .double => "double"
  | .string => "string"
  | .bytes => "bytes"
  | .bool => "Bool"
  | .presence => "true"
  | .flags => "#"
  | .named name bare => (if bare && !startsLower (localPart name) then "%" else "") ++ name
  | .vector elem boxed => (if boxed then "Vector<" else "vector<") ++ elem.render ++ ">"
  | .generic name => "!" ++ name

/-- The type that an expression stands for. A generic is its last part alone, a built-in type keeps
no marks, and a vector is boxed if its name starts with a capital letter. -/
def ofExpr : TypeExpr → Except TypeFault Ty
  | .plain h =>
    if h.placeholder then .ok (.generic h.name)
    else if !h.space.isEmpty then .ok (.named h.fullName h.bare)
    else if isVectorName h.name then .error ⟨(TypeExpr.plain h).render, .noElement⟩
    else .ok ((builtin? h.name).getD (.named h.name h.bare))
  | .apply h arg =>
    if h.placeholder then .ok (.generic h.name)
    else if h.space.isEmpty && isVectorName h.name then
      (ofExpr arg).map fun elem => .vector elem (h.name = "Vector")
    else .error ⟨(TypeExpr.apply h arg).render, .argument⟩

def parse (text : String) : Except TypeFault Ty :=
  if text = "#" then .ok .flags
  else match TypeExpr.read text.toList with
    | .error _ => .error ⟨text, .malformed⟩
    | .ok e => ofExpr e

def isPrimitive : Ty → Bool
  | .named .. | .vector .. | .generic _ => false
  | _ => true

end Ty

def Decl.FlagBit.parse (text : String) : Except TypeFault FlagBit :=
  (FlagBit.read text.toList).mapError fun _ => ⟨text, .badGuard⟩

end TypeLang
