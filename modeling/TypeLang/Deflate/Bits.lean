namespace TypeLang.Deflate

structure BitCursor where
  bytes : ByteArray
  pos : Nat

abbrev Bits (α : Type) := StateT BitCursor Option α

def fail {α : Type} : Bits α := fun _ => none

def require (p : Bool) : Bits Unit := if p then pure () else fail

def bit : Bits Nat := fun c =>
  c.bytes[c.pos / 8]?.map fun b => ((b.toNat >>> (c.pos % 8)) % 2, { c with pos := c.pos + 1 })

def bits : (n : Nat) → Bits Nat
  | 0 => return 0
  | n + 1 => do
    let low ← bit
    return low + 2 * (← bits n)

def align : Bits Unit := modify fun c => { c with pos := (c.pos + 7) / 8 * 8 }

def bytes (n : Nat) : Bits ByteArray := fun c =>
  let start := c.pos / 8
  if start + n ≤ c.bytes.size then
    some (c.bytes.extract start (start + n), { c with pos := c.pos + 8 * n })
  else none

end TypeLang.Deflate
