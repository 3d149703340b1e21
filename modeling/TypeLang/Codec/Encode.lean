import TypeLang.Codec.Basic

/-!
Writing objects. The flags words follow from which fields are given; all fields of an object are
looked at for that before any of them is written.
-/

namespace TypeLang

abbrev Write := EStateM WriteFault ByteArray

namespace Write

def emit (b : ByteArray) : Write Unit := modify (· ++ b)

/-- Takes back what a failing write has appended. -/
def appending (w : Write Unit) : Write Unit := fun buffer =>
  let start := buffer.size
  match w buffer with
  | .ok () buffer => .ok () buffer
  | .error e buffer => .error e (buffer.extract 0 start)

def bytes (b : ByteArray) : Write Unit :=
  if Wire.maxLength < b.size then throw (.bytesTooLong b.size) else emit (Wire.bytes b)

end Write

namespace Codec

structure Site where
  entry : String
  field : FieldPlan

def Site.mismatch (s : Site) (found : Value) : WriteFault :=
  .typeMismatch s.entry s.field.name s.field.type.render found.kind

def setBit (words : Words) (g : Gate) : Except WriteFault Words :=
  match g.set? words with
  | some words => .ok words
  | none => .error (.crash g.slot words.length)

def flagsWords (entry : String) (given : String → Option Value) :
    List FieldPlan → Words → Except WriteFault Words
  | [], words => .ok words
  | f :: rest, words =>
    match f.role, given f.name with
    | .presence (some gate), some (.bool true) => do
      flagsWords entry given rest (← setBit words gate)
    | .presence _, none | .presence _, some (.bool _) => flagsWords entry given rest words
    | .presence _, some v => .error (Site.mismatch ⟨entry, f⟩ v)
    | .value _ (some gate), some _ => do flagsWords entry given rest (← setBit words gate)
    | .value _ none, none => .error (.missingField entry f.name)
    | _, _ => flagsWords entry given rest words

/-- A value together with how it is written. -/
structure Pending where
  value : Value
  write : Layout → Site → Write Unit

def writeWord (words : Words) (slot : Nat) : Write Unit :=
  match words[slot]? with
  | some word => Write.emit (Wire.word32 word)
  | none => throw (.crash slot words.length)

def writeFields (entry : String) (given : Dict Pending) (words : Words) :
    List FieldPlan → Write Unit
  | [] => return ()
  | f :: rest => do
    match f.role with
    | .flags slot => writeWord words slot
    | .presence _ => pure ()
    | .value layout _ =>
      match given.get? f.name with
      | none => pure ()
      | some v => v.write layout ⟨entry, f⟩
    writeFields entry given words rest

def writeBody (p : Plan) (given : Dict Pending) : Write Unit := do
  let words ← liftExcept
    (flagsWords p.name (fun name => (given.get? name).map (·.value)) p.fields
      (List.replicate p.flagsWords 0))
  writeFields p.name given words p.fields
where
  liftExcept : Except WriteFault Words → Write Words
    | .ok words => return words
    | .error e => throw e

def planToWrite (c : Codec) (key : Key) : Write Plan :=
  match c.plan? key with
  | some p => return p
  | none => throw (.unknownEntry key.render)

def writeBoxed (c : Codec) (union : Option String) (name : String) (given : Dict Pending) :
    Write Unit := do
  let p ← c.planToWrite (.name name)
  if c.admits union p then
    Write.emit (Wire.word32 p.id)
    writeBody p given
  else throw (.unexpectedConstructor (union.getD "") p.id)

mutual
def writeAs (c : Codec) : Value → Layout → Site → Write Unit
  | .int n, .int, _ => Write.emit (Wire.int n)
  | .long n, .long, _ => Write.emit (Wire.long n)
  | .int128 b, .int128, _ => Write.emit b.val
  | .int256 b, .int256, _ => Write.emit b.val
  | .double d, .double, _ => Write.emit (Wire.double d)
  | .string s, .string, _ => Write.bytes s.toUTF8
  | .string s, .bytes, _ => Write.bytes s.toUTF8
  | .bytes b, .bytes, _ => Write.bytes b
  | .bool b, .bool, _ => Write.emit (Wire.bool b)
  | .vector items, .vector elem isBoxed, site => do
    if isBoxed then Write.emit (Wire.word32 Id.vector)
    Write.emit (Wire.word32 (UInt32.ofNat items.length))
    writeItems c items elem site
  | .object name fields, .boxed union, _ => c.writeBoxed union name (pending c fields)
  | .object name fields, .generic, _ => c.writeBoxed none name (pending c fields)
  | .object name fields, .bare target, site =>
    match c.plan? (.id target) with
    | none => throw (.unknownEntry (showId target))
    | some p =>
      if name = p.name then writeBody p (pending c fields)
      else throw (site.mismatch (.object name fields))
  | .raw b, .generic, _ => Write.emit b
  | v, _, site => throw (site.mismatch v)
def writeItems (c : Codec) : List Value → Layout → Site → Write Unit
  | [], _, _ => return ()
  | v :: rest, layout, site => do
    writeAs c v layout site
    writeItems c rest layout site
def pending (c : Codec) : List (String × Value) → List (String × Pending)
  | [] => []
  | (name, v) :: rest => (name, ⟨v, writeAs c v⟩) :: pending c rest
end

/-- Writes an entry by its plan, behind its id unless it is bare. -/
def writer (c : Codec) (p : Plan) (bare : Bool) (fields : Fields) : Write Unit :=
  Write.appending do
    unless bare do Write.emit (Wire.word32 p.id)
    writeBody p (c.pending fields)

def encodeBare (c : Codec) (key : Key) (fields : Fields) : Write Unit := do
  let p ← c.planToWrite key
  Write.appending (writeBody p (c.pending fields))

def encode (c : Codec) (key : Key) (fields : Fields) : Write Unit := do
  let p ← c.planToWrite key
  Write.appending do
    Write.emit (Wire.word32 p.id)
    writeBody p (c.pending fields)

def encodeObject (c : Codec) (o : Object) : Write Unit := c.encode (.name o.name) o.fields

def toBytes (c : Codec) (o : Object) : Except WriteFault ByteArray :=
  match c.encodeObject o .empty with
  | .ok () b => .ok b
  | .error e _ => .error e

end Codec

end TypeLang
