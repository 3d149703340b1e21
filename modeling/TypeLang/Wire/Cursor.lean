import TypeLang.Block
import TypeLang.Wire.Fault
import TypeLang.Wire.LittleEndian

/-!
A cursor is a position in bytes. Reading moves it forwards; a read that fails part of the way leaves
it where it failed, and whoever offers the read as a whole moves it back.
-/

namespace TypeLang

structure Cursor where
  bytes : ByteArray
  pos : Nat
  /-- The sizes of the payloads unpacked so far, packed and unpacked. -/
  unpacked : List (Nat × Nat)

namespace Cursor

def ofBytes (bytes : ByteArray) : Cursor := ⟨bytes, 0, []⟩

def remaining (c : Cursor) : Nat := c.bytes.size - c.pos

def isEmpty (c : Cursor) : Bool := c.remaining = 0

def peek? (c : Cursor) : Option UInt32 :=
  if 4 ≤ c.remaining then
    some (UInt32.ofNat (LittleEndian.unpack (c.bytes.extract c.pos (c.pos + 4))))
  else none

end Cursor

abbrev Read (α : Type) := EStateM ReadFault Cursor α

namespace Read

/-- The next `n` bytes, or none of them if fewer are left. -/
def take (n : Nat) : Read (Block n) := fun c =>
  if h : n ≤ c.remaining then
    .ok ⟨c.bytes.extract c.pos (c.pos + n), by
      simp only [Cursor.remaining] at h
      simp only [ByteArray.size_extract]
      omega⟩ { c with pos := c.pos + n }
  else .error (.truncated n c.remaining) c

def byte : Read UInt8 := fun c =>
  if h : c.pos < c.bytes.size then .ok c.bytes[c.pos] { c with pos := c.pos + 1 }
  else .error (.truncated 1 c.remaining) c

def rest : Read ByteArray := fun c =>
  .ok (c.bytes.extract c.pos c.bytes.size) { c with pos := c.bytes.size }

def rewinding {α : Type} (r : Read α) : Read α := fun c =>
  match r c with
  | .ok a c' => .ok a c'
  | .error e c' => .error e { c' with pos := c.pos }

end Read

end TypeLang
