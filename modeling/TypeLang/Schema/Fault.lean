import TypeLang.Schema.Ty
import TypeLang.Kind

namespace TypeLang

open Decl

inductive GuardFault : Type
  | onFlags
  | bitOutOfRange
  | undeclared
  deriving DecidableEq, Repr

def GuardFault.message : GuardFault → String
  | .onFlags => "cannot gate a `#` argument"
  | .bitOutOfRange => "uses a bit above 31"
  | .undeclared => "does not name an earlier `#` argument"

inductive SchemaFault : Type
  | line (fault : LineFault)
  | type (entry : String) (fault : TypeFault)
  | duplicateId (id : UInt32) (first second : String)
  | duplicateName (kind : Kind) (name : String)
  | guard (entry argument : String) (guard : FlagBit) (fault : GuardFault)
  deriving DecidableEq, Repr

def SchemaFault.message : SchemaFault → String
  | .line fault => fault.message
  | .type entry fault => s!"in `{entry}`: {fault.message}"
  | .duplicateId n first second =>
    s!"duplicate constructor id 0x{Text.hex8 n}: `{first}` and `{second}`"
  | .duplicateName kind name => s!"duplicate {kind.name} `{name}`"
  | .guard entry argument bit fault =>
    s!"`{entry}.{argument}`: predicate `{bit.render}` {fault.message}"

end TypeLang
