import TypeLang.Deflate.Huffman

namespace TypeLang.Deflate

def lengthOrder : List Nat :=
  [16, 17, 18, 0, 8, 7, 9, 6, 10, 5, 11, 4, 12, 3, 13, 2, 14, 1, 15]

def copyLength (s : Nat) : Bits Nat :=
  if s < 8 then return s + 3
  else if s = 28 then return 258
  else if s < 28 then do
    let extra := s / 4 - 1
    return ((4 + s % 4) <<< extra) + 3 + (← bits extra)
  else fail

def copyDistance (s : Nat) : Bits Nat :=
  if s < 2 then return s + 1
  else if s < 30 then do
    let extra := s / 2 - 1
    return ((2 + s % 2) <<< extra) + 1 + (← bits extra)
  else fail

def byteBack (distance : Nat) (out : ByteArray) : UInt8 :=
  if distance ≤ out.size then out[out.size - distance]?.getD 0 else 0

/-- Appends bytes that stand `distance` before the end, which may be among those just appended. -/
def copyBack (distance : Nat) : (length : Nat) → ByteArray → ByteArray
  | 0, out => out
  | n + 1, out => copyBack distance n (out.push (byteBack distance out))

/-- The symbols of a coded block up to its end. Each takes a bit at least, of which there are fewer
than `fuel`. -/
def inflateSymbols (literals distances : Code) : (fuel : Nat) → ByteArray → Bits ByteArray
  | 0, _ => fail
  | n + 1, out => do
    let s ← literals.read
    if s < 256 then inflateSymbols literals distances n (out.push (UInt8.ofNat s))
    else if s = 256 then return out
    else do
      let length ← copyLength (s - 257)
      let distance ← copyDistance (← distances.read)
      inflateSymbols literals distances n (copyBack distance length out)

def inflateStored (out : ByteArray) : Bits ByteArray := do
  align
  let length ← bits 16
  let inverted ← bits 16
  require (length + inverted = 0xffff)
  return out ++ (← bytes length)

def code (lengths : List Nat) : Bits Code := fun c => (Code.ofLengths? lengths).map (·, c)

def fixedLiterals : List Nat :=
  List.replicate 144 8 ++ List.replicate 112 9 ++ List.replicate 24 7 ++ List.replicate 8 8

def fixedDistances : List Nat := List.replicate 32 5

def readLengths (c : Code) (n : Nat) : (fuel : Nat) → List Nat → Bits (List Nat)
  | 0, _ => fail
  | fuel + 1, lengths => do
    if lengths.length = n then return lengths.reverse
    require (lengths.length < n)
    let s ← c.read
    if s < 16 then readLengths c n fuel (s :: lengths)
    else if s = 16 then
      match lengths with
      | [] => fail
      | l :: _ => readLengths c n fuel (List.replicate (3 + (← bits 2)) l ++ lengths)
    else if s = 17 then readLengths c n fuel (List.replicate (3 + (← bits 3)) 0 ++ lengths)
    else readLengths c n fuel (List.replicate (11 + (← bits 7)) 0 ++ lengths)

def readCodes : Bits (Code × Code) := do
  let literals := 257 + (← bits 5)
  let distances := 1 + (← bits 5)
  let given := 4 + (← bits 4)
  require (literals ≤ 286 && distances ≤ 30)
  let order := lengthOrder.take given
  let lengths ← order.mapM fun s => do return (s, ← bits 3)
  let lengthCode ← code ((List.range 19).map fun s => (lengths.lookup s).getD 0)
  let all ← readLengths lengthCode (literals + distances) (literals + distances + 1) []
  return (← code (all.take literals), ← code (all.drop literals))

def inflateBlocks : (fuel : Nat) → ByteArray → Bits ByteArray
  | 0, _ => fail
  | n + 1, out => do
    let last ← bit
    let kind ← bits 2
    let fuel := 8 * (← get).bytes.size + 1
    let out ← match kind with
      | 0 => inflateStored out
      | 1 => do
        inflateSymbols (← code fixedLiterals) (← code fixedDistances) fuel out
      | 2 => do
        let (literals, distances) ← readCodes
        inflateSymbols literals distances fuel out
      | _ => fail
    if last = 1 then return out else inflateBlocks n out

def inflate : Bits ByteArray := do
  inflateBlocks (8 * (← get).bytes.size + 1) .empty

end TypeLang.Deflate
