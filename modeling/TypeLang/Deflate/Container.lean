import TypeLang.Checksum.Adler32
import TypeLang.Checksum.Crc32
import TypeLang.Deflate.Inflate

namespace TypeLang.Deflate

def byte : Bits Nat := bits 8

def text : (limit : Nat) → Bits Unit
  | 0 => do require ((← byte) = 0)
  | n + 1 => do
    if (← byte) = 0 then return () else text n

def passed : Bits ByteArray := do
  let c ← get
  return c.bytes.extract 0 (c.pos / 8)

def longestText : Nat := 65535

def gzipHeader : Bits Unit := do
  require ((← byte) = 0x1f && (← byte) = 0x8b && (← byte) = 8)
  let flags ← byte
  require (flags < 32)
  let _ ← bytes 6
  if flags.testBit 2 then
    let length ← bits 16
    let _ ← bytes length
  if flags.testBit 3 then text longestText
  if flags.testBit 4 then text longestText
  if flags.testBit 1 then
    let sum := Checksum.crc32 (← passed)
    require ((← bits 16) = sum.toNat % 0x10000)

/-- A gzip member. What follows it does not count. -/
def gzip : Bits ByteArray := do
  gzipHeader
  let out ← inflate
  align
  require ((← bits 32) = (Checksum.crc32 out).toNat)
  require ((← bits 32) = out.size % UInt32.size)
  return out

/-- A zlib stream without a preset dictionary. What follows it does not count. -/
def zlib : Bits ByteArray := do
  let method ← byte
  let flags ← byte
  require ((256 * method + flags) % 31 = 0 && !flags.testBit 5)
  require (method % 16 = 8 && method / 16 ≤ 7)
  let out ← inflate
  align
  let sum ← bytes 4
  require (sum.toList.foldl (fun n b => 256 * n + b.toNat) 0 = (Checksum.adler32 out).toNat)
  return out

def run (r : Bits ByteArray) (b : ByteArray) : Option ByteArray := (r ⟨b, 0⟩).map (·.1)

/-- Unpacks a payload: a gzip member of at least one byte, or else a zlib stream. -/
def unpack (b : ByteArray) : Option ByteArray :=
  match run gzip b with
  | some out => if out.isEmpty then run zlib b else some out
  | none => run zlib b

end TypeLang.Deflate
