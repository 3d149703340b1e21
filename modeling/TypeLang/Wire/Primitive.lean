import TypeLang.Value.Basic
import TypeLang.Wire.Cursor

/-!
The wire form of the built-in types. Numbers are little-endian words, a truth value is the id of one
of two constructors, and bytes come with a header that counts them and with zeros behind them up to
a multiple of four.
-/

namespace TypeLang

namespace Id

def vector : UInt32 := 0x1cb5c415
def boolTrue : UInt32 := 0x997275b5
def boolFalse : UInt32 := 0xbc799737
def gzipPacked : UInt32 := 0x3072cfa1

end Id

namespace Wire

def maxLength : Nat := 0xffffff

def padding (n : Nat) : Nat := (4 - n % 4) % 4

def word32 (n : UInt32) : ByteArray := LittleEndian.pack 4 n.toNat

def int (n : Int32) : ByteArray := word32 n.toUInt32

def long (n : Int64) : ByteArray := LittleEndian.pack 8 n.toUInt64.toNat

def double (d : Double) : ByteArray := LittleEndian.pack 8 d.bits.toNat

def bool (b : Bool) : ByteArray := word32 (if b then Id.boolTrue else Id.boolFalse)

/-- One byte for a length below 254, else a mark and three bytes. -/
def header (length : Nat) : ByteArray :=
  if length < 254 then LittleEndian.pack 1 length
  else LittleEndian.pack 1 254 ++ LittleEndian.pack 3 length

def bytes (b : ByteArray) : ByteArray :=
  let h := header b.size
  h ++ b ++ LittleEndian.pack (padding (h.size + b.size)) 0

end Wire

namespace Read

def word32 : Read UInt32 := do
  return UInt32.ofNat (LittleEndian.unpack (← take 4).val)

def word64 : Read UInt64 := do
  return UInt64.ofNat (LittleEndian.unpack (← take 8).val)

def int : Read Int32 := do return (← word32).toInt32

def long : Read Int64 := do return (← word64).toInt64

def double : Read Double := do return ⟨← word64⟩

def bool : Read Bool := do
  let id ← word32
  if id = Id.boolTrue then return true
  else if id = Id.boolFalse then return false
  else throw (.unexpectedConstructor "Bool" id)

def header : Read (Nat × Nat) := do
  let first ← byte
  if first ≠ 254 then return (1, first.toNat)
  else do
    let low ← byte
    let middle ← byte
    let high ← byte
    return (4, LittleEndian.join [low, middle, high])

def bytes : Read ByteArray := do
  let (size, length) ← header
  let b ← take length
  let _ ← take (Wire.padding (size + length))
  return b.val

def string : Read String := do
  match String.fromUTF8? (← bytes) with
  | some s => return s
  | none => throw .invalidUtf8

end Read

end TypeLang
