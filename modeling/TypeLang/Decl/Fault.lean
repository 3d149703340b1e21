import TypeLang.Text.Numeral

namespace TypeLang.Decl

open Text (NumeralFault)

inductive TokenFault : Type
  | empty
  | undeclared
  | badGenerics
  | badFlag
  | bitOutOfRange (bit : Nat)
  | unclosedArgument
  | untyped
  deriving DecidableEq, Repr

def TokenFault.message : TokenFault → String
  | .empty => "empty token"
  | .undeclared => "unknown generic or flag definition"
  | .badGenerics => "malformed generic definition"
  | .badFlag => "invalid flag expression"
  | .bitOutOfRange bit => s!"flag bit {bit} out of range (must be below 32)"
  | .unclosedArgument => "invalid generic argument (unclosed `<`)"
  | .untyped => "parameter without `:type` is not supported"

inductive Fault : Type
  | empty
  | noSemicolon
  | noType
  | noName
  | noId
  | badId (cause : NumeralFault)
  | badParam (cause : TokenFault)
  | unsupported
  deriving DecidableEq, Repr

/-- A parameter without a type is an older form of declaration, not a malformed one. -/
def Fault.ofToken : TokenFault → Fault
  | .untyped => .unsupported
  | cause => .badParam cause

def Fault.message : Fault → String
  | .empty => "empty definition"
  | .noSemicolon => "missing `;` terminator"
  | .noType => "missing `= Type`"
  | .noName => "missing or malformed name"
  | .noId => "missing constructor ID"
  | .badId cause => s!"invalid constructor ID: {cause.message}"
  | .badParam cause => s!"invalid parameter: {cause.message}"
  | .unsupported => "unsupported TL syntax"

structure LineFault where
  line : Nat
  text : String
  cause : Fault
  deriving DecidableEq, Repr

def LineFault.message (f : LineFault) : String :=
  s!"line {f.line}: {f.cause.message} (`{f.text}`)"

end TypeLang.Decl
