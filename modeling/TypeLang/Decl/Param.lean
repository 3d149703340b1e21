import TypeLang.Decl.TypeExpr

namespace TypeLang.Decl

open Text

/-- The bit `flags.3` of a flags word. -/
structure FlagBit where
  flags : String
  bit : Nat
  deriving DecidableEq, Repr

inductive ParamType : Type
  | flags
  | value (type : TypeExpr) (guard : Option FlagBit)
  deriving DecidableEq, Repr

structure Param where
  name : String
  type : ParamType
  deriving DecidableEq, Repr

/-- A generic `X:Type`, referred to as `!X`. -/
structure Generic where
  name : String
  bound : String
  deriving DecidableEq, Repr

namespace FlagBit

def render (f : FlagBit) : String := s!"{f.flags}.{f.bit}"

def read (cs : List Char) : Except TokenFault FlagBit :=
  match cut? '.' cs with
  | none | some ([], _) => .error .badFlag
  | some (flags, bit) =>
    match readNat 10 UInt32.size bit with
    | .error _ => .error .badFlag
    | .ok n => if n < 32 then .ok ⟨String.ofList flags, n⟩ else .error (.bitOutOfRange n)

end FlagBit

namespace ParamType

def render : ParamType → String
  | .flags => "#"
  | .value type none => type.render
  | .value type (some guard) => guard.render ++ "?" ++ type.render

/-- The guard is read before the type. -/
def read (cs : List Char) : Except TokenFault ParamType :=
  if cs = ['#'] then .ok .flags
  else match cut? '?' cs with
    | none => (TypeExpr.read cs).map (.value · none)
    | some (guard, type) => do
      let guard ← FlagBit.read guard
      let type ← TypeExpr.read type
      return .value type (some guard)

end ParamType

namespace Param

def render (p : Param) : String := p.name ++ ":" ++ p.type.render

def read (cs : List Char) : Except TokenFault Param :=
  if cs.head? = some '\x7b' then .error .badGenerics
  else match cut? ':' cs with
    | none => .error .untyped
    | some (name, type) =>
      if name.isEmpty || type.isEmpty then .error .empty
      else (ParamType.read type).map (⟨String.ofList name, ·⟩)

end Param

namespace Generic

def render (g : Generic) : String := g.name ++ ":" ++ g.bound

def read (cs : List Char) : Except TokenFault Generic :=
  match cut? ':' (trim cs) with
  | none | some ([], _) | some (_, []) => .error .badGenerics
  | some (name, bound) => .ok ⟨String.ofList name, String.ofList bound⟩

def readList : List Char → Except TokenFault (List Generic)
  | '\x7b' :: cs =>
    match dropLast? '\x7d' cs with
    | none => .error .badGenerics
    | some items => (pieces (· = ',') items).mapM read
  | _ => .error .badGenerics

end Generic

end TypeLang.Decl
