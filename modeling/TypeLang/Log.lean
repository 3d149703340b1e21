/-!
Log records. Every operation that reports what it did has a function beside it that lists the
records of one run, in order.
-/

namespace TypeLang

namespace Log

inductive Level : Type
  | error
  | warn
  | info
  | debug
  | trace
  deriving DecidableEq, Repr

def Level.name : Level → String
  | .error => "error"
  | .warn => "warn"
  | .info => "info"
  | .debug => "debug"
  | .trace => "trace"

/-- How much a level lets through: each level shows itself and those before it. -/
def Level.rank : Level → Nat
  | .error => 1
  | .warn => 2
  | .info => 3
  | .debug => 4
  | .trace => 5

inductive Origin : Type
  | lines
  | source
  | schema
  | merge
  | diff
  | codec
  | command
  | prompt
  deriving DecidableEq, Repr

/-- The path of a part, by which settings refer to it. It begins with the paths of the parts around
it. -/
def Origin.path : Origin → String
  | .lines => "layer_tl_parser::iterator"
  | .source => "layer_tl_parser"
  | .schema => "layer_tl_schema::schema"
  | .merge => "layer_tl_schema::merge"
  | .diff => "layer_tl_schema::diff"
  | .codec => "layer_tl_codec::codec"
  | .command => "tl"
  | .prompt => "tl::resolve"

structure Record where
  level : Level
  origin : Origin
  text : String
  deriving DecidableEq, Repr

end Log

abbrev Log := List Log.Record

end TypeLang
