import TypeLang.Codec.Basic

/-!
Reading objects. Every value that is read takes one of the levels that are left, and so does each
packed payload on top of the value inside it; where no level is left, the value is too deep.
-/

namespace TypeLang

def Read.within {α : Type} (packed plain : ByteArray) (r : Read α) : Read α := fun c =>
  match r ⟨plain, 0, c.unpacked ++ [(packed.size, plain.size)]⟩ with
  | .ok a inner => .ok a { c with unpacked := inner.unpacked }
  | .error e inner => .error e { c with unpacked := inner.unpacked }

namespace Codec

def readItems (read : Read Value) : (count : Nat) → List Value → Read (List Value)
  | 0, items => return items.reverse
  | n + 1, items => do
    let v ← read
    readItems read n (v :: items)

/-- Reads a count and as many items, each of which takes `width` bytes at least. A count for which
the bytes cannot suffice is refused before any item is read. -/
def readVector (c : Codec) (width : Nat) (read : Read Value) : Read Value := do
  let count := (← Read.word32).toNat
  let remaining := (← get).remaining
  if width = 0 then
    if c.config.maxZeroWidthItems < count then
      throw (.tooManyItems count c.config.maxZeroWidthItems)
  else if remaining / width < count then
    throw (.truncated (saturate (count * width)) remaining)
  return .vector (← readItems read count [])

def fillWord (words : Words) (slot : Nat) (word : UInt32) : Read Words :=
  if slot < words.length then return words.set slot word else throw (.crash slot words.length)

def readGate (words : Words) : Option Gate → Read Bool
  | none => return true
  | some g =>
    match g.isSet? words with
    | some isSet => return isSet
    | none => throw (.crash g.slot words.length)

def readFields (read : Layout → Read Value) : List FieldPlan → Words → Fields → Read Fields
  | [], _, fields => return fields
  | f :: rest, words, fields =>
    match f.role with
    | .flags slot => do
      let words ← fillWord words slot (← Read.word32)
      readFields read rest words fields
    | .presence gate => do
      let isThere ← readGate words gate
      readFields read rest words (Dict.insert f.name (.bool isThere) fields)
    | .value layout gate => do
      if ← readGate words gate then
        let v ← read layout
        readFields read rest words (Dict.insert f.name v fields)
      else readFields read rest words fields

def readBody (read : Layout → Read Value) (p : Plan) : Read Object := do
  return ⟨p.name, ← readFields read p.fields (List.replicate p.flagsWords 0) []⟩

def readUnpacked (c : Codec) (read : Read Value) : Read Value := do
  let packed ← Read.bytes
  match c.unpack packed with
  | none => throw .badGzip
  | some plain => Read.within packed plain read

def isPacked (c : Codec) (id : UInt32) : Bool := id = Id.gzipPacked && c.config.inflateGzip

def readBoxed (c : Codec) (union : Option String) (read : Layout → Read Value)
    (readPacked : Read Value) : Read Value := do
  let id ← Read.word32
  if c.isPacked id then readPacked
  else match c.plan? (.id id) with
    | none => throw (.unknownConstructor id)
    | some p =>
      if c.admits union p then return (← readBody read p).toValue
      else throw (.unexpectedConstructor (union.getD "") id)

def tooDeep (c : Codec) : Read Value := throw (.tooDeep c.config.maxDepth)

mutual
/-- Reads any boxed value: a vector, a truth value, an object, or a packed one of these. -/
def readAny (c : Codec) : (levels : Nat) → Read Value
  | 0 => c.tooDeep
  | n + 1 => do
    let id ← Read.word32
    if id = Id.vector then c.readVector 4 (readAny c n)
    else if id = Id.boolTrue then return .bool true
    else if id = Id.boolFalse then return .bool false
    else if c.isPacked id then readPackedAny c n
    else match c.plan? (.id id) with
      | none => throw (.unknownConstructor id)
      | some p => return (← readBody (readAs c n) p).toValue
def readAs (c : Codec) : (levels : Nat) → Layout → Read Value
  | 0, _ => c.tooDeep
  | n + 1, layout =>
    match layout with
    | .int => return .int (← Read.int)
    | .long => return .long (← Read.long)
    | .int128 => return .int128 (← Read.take 16)
    | .int256 => return .int256 (← Read.take 32)
    | .double => return .double (← Read.double)
    | .string => return .string (← Read.string)
    | .bytes => return .bytes (← Read.bytes)
    | .bool => return .bool (← Read.bool)
    | .boxed union => c.readBoxed union (readAs c n) (readPackedBoxed c n union)
    | .bare target =>
      match c.plan? (.id target) with
      | none => throw (.unknownConstructor target)
      | some p => return (← readBody (readAs c n) p).toValue
    | .vector elem isBoxed => do
      let id ← if isBoxed then Read.word32 else pure Id.vector
      if id = Id.vector then c.readVector (elem.width c.widths) (readAs c n elem)
      else if c.isPacked id then readPackedAs c n (.vector elem isBoxed)
      else throw (.unexpectedConstructor "Vector" id)
    | .generic => readAny c n
def readPackedAny (c : Codec) : (levels : Nat) → Read Value
  | 0 => c.tooDeep
  | n + 1 => c.readUnpacked (readAny c n)
def readPackedAs (c : Codec) : (levels : Nat) → Layout → Read Value
  | 0, _ => c.tooDeep
  | n + 1, layout => c.readUnpacked (readAs c n layout)
def readPackedBoxed (c : Codec) : (levels : Nat) → Option String → Read Value
  | 0, _ => c.tooDeep
  | n + 1, union =>
    c.readUnpacked (c.readBoxed union (readAs c n) (readPackedBoxed c n union))
end

def planToRead (c : Codec) (key : Key) : Read Plan :=
  match c.plan? key with
  | some p => return p
  | none => throw (.unknownEntry key.render)

def decodeBody (c : Codec) (p : Plan) : Read Object :=
  Read.rewinding (readBody (c.readAs c.config.maxDepth) p)

def decodeAny (c : Codec) : Read Value := Read.rewinding (c.readAny c.config.maxDepth)

def decodeAs (c : Codec) (key : Key) : Read Object := do
  let p ← c.planToRead key
  Read.rewinding do
    let id ← Read.word32
    if id = p.id then readBody (c.readAs c.config.maxDepth) p
    else throw (.unexpectedConstructor p.name id)

def decodeBare (c : Codec) (key : Key) : Read Object := do
  c.decodeBody (← c.planToRead key)

def decodeResult (c : Codec) (method : String) : Read Value := do
  let p ← c.planToRead (.name method)
  match p.result with
  | some layout => Read.rewinding (c.readAs c.config.maxDepth layout)
  | none => throw (.unknownEntry s!"method {method}")

end Codec

end TypeLang
