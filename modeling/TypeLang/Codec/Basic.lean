import TypeLang.Codec.Width
import TypeLang.Deflate.Container
import TypeLang.Wire.Primitive

namespace TypeLang

structure Codec.Config where
  checkUnions : Bool := true
  inflateGzip : Bool := true
  /-- How deep objects, vectors and packed payloads may nest on reading. -/
  maxDepth : Nat := 128
  /-- How many items a vector may have on reading if they can take no bytes. -/
  maxZeroWidthItems : Nat := 65536
  deriving DecidableEq, Repr

structure Codec where
  config : Codec.Config
  unpack : ByteArray → Option ByteArray
  plans : List Plan
  widths : Widths

namespace Codec

inductive Key : Type
  | name (name : String)
  | id (id : UInt32)
  deriving DecidableEq, Repr

def Key.render : Key → String
  | .name s => s
  | .id n => showId n

def ofSchema (s : Schema) (config : Config)
    (unpack : ByteArray → Option ByteArray := Deflate.unpack) : Except PlanFault Codec := do
  let plans ← s.entries.mapM (Plan.ofEntry s)
  return { config, unpack, plans, widths := Widths.ofPlans plans }

/-- The plan of an entry. Of a constructor and a method of one name, the first one in the schema is
meant. -/
def plan? (c : Codec) : Key → Option Plan
  | .name name => c.plans.find? (·.name = name)
  | .id id => c.plans.find? (·.id = id)

def admits (c : Codec) (union : Option String) (p : Plan) : Bool :=
  !c.config.checkUnions || union.all (p.union = some ·)

def ofSchemaLog (c : Codec) : Log :=
  let names := c.plans.map (·.name)
  let shadowed := names.zipIdx.filter fun (name, i) => (names.take i).contains name
  (shadowed.map fun (name, _) =>
    ⟨.warn, .codec, s!"[tl-codec] `{name}` is both a class and a method; writing by name uses the first"⟩)
  ++ [⟨.debug, .codec, s!"[tl-codec] dispatch tables built: {names.length} readers, {names.eraseDups.length} writers"⟩]

def unpackLog (sizes : List (Nat × Nat)) : Log :=
  sizes.map fun (packed, plain) =>
    ⟨.trace, .codec, s!"[tl-codec] gzip_packed: {packed} -> {plain} bytes"⟩

end Codec

end TypeLang
