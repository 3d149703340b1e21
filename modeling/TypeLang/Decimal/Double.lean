/-!
Binary floating-point numbers of 64 bits. A number is its bits: two numbers that compare as equal,
such as the two zeros, may still be different numbers.
-/

namespace TypeLang

structure Double where
  bits : UInt64
  deriving DecidableEq, Repr

namespace Double

inductive Magnitude : Type
  | nan
  | infinite
  /-- `m * 2 ^ q`. The neighbour below is half as far away as the one above if `m` is the least
  significand of a binade that has another one below it. -/
  | finite (m : Nat) (q : Int) (closeBelow : Bool)
  deriving DecidableEq, Repr

def isNegative (d : Double) : Bool := d.bits >>> 63 = 1

def magnitude (d : Double) : Magnitude :=
  let exponent : Nat := ((d.bits >>> 52) &&& 0x7ff).toNat
  let fraction : Nat := (d.bits &&& 0xfffffffffffff).toNat
  if exponent = 0x7ff then if fraction = 0 then .infinite else .nan
  else if exponent = 0 then .finite fraction (-1074) false
  else .finite (0x10000000000000 + fraction) (exponent - 1075) (fraction = 0 && 1 < exponent)

def precision : Nat := 53

/-- A whole number rounded to the nearest one with a significand that fits, a half going to the even
significand. -/
def round (n : Nat) : Nat :=
  let unit := Nat.log2 n + 1 - precision
  let size := 1 <<< unit
  let (low, rest) := (n / size, n % size)
  let up := size < 2 * rest || (size = 2 * rest && low % 2 = 1)
  size * (low + if up then 1 else 0)

/-- The least number that rounds to more than all finite ones. -/
def overflow : Nat := (1 <<< 1024) - (1 <<< 970)

/-- Equality of the numbers: the zeros are equal, and nothing equals what is not a number. -/
def agrees (a b : Double) : Bool :=
  match a.magnitude, b.magnitude with
  | .nan, _ | _, .nan => false
  | .finite 0 _ _, .finite 0 _ _ => true
  | _, _ => a = b

end Double

end TypeLang
