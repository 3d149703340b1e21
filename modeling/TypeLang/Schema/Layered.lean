import TypeLang.Decl.Source
import TypeLang.Schema.Basic

namespace TypeLang

open Decl

def Schema.parse (rule : IdRule) (text : String) : Except SchemaFault Schema := do
  let source ← (Source.parse rule text).mapError SchemaFault.line
  ofDecls source.decls

structure Layered where
  layer : Int32
  schema : Schema
  deriving DecidableEq

namespace Layered

/-- The schema of a text, at the highest layer that its comments state, or else at layer 0. -/
def parse (rule : IdRule) (text : String) : Except SchemaFault Layered := do
  let source ← (Source.parse rule text).mapError SchemaFault.line
  let schema ← Schema.ofDecls source.decls
  return ⟨source.layer.getD 0, schema⟩

def parseLog (rule : IdRule) (text : String) : Log :=
  Source.parseLog rule text ++
    match Source.parse rule text with
    | .error _ => []
    | .ok source =>
      match source.decls.mapM Entry.ofDecl with
      | .error _ => []
      | .ok entries => Schema.ofEntriesLog entries

end Layered

end TypeLang
