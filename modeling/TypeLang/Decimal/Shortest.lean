import TypeLang.Decimal.Double

/-!
The shortest decimal that reads back as a given binary number. Among the decimals of one length the
nearest one is taken, and the two candidates of a length are the neighbours of the number itself.
-/

namespace TypeLang

/-- The decimal `digits * 10 ^ exponent`. -/
structure Decimal where
  digits : Nat
  exponent : Int
  deriving DecidableEq, Repr

inductive Tie : Type
  | up
  | even
  deriving DecidableEq, Repr

namespace Decimal

def digitCount (n : Nat) : Nat := (Nat.toDigits 10 n).length

/-- A positive fraction with the ends of the interval of numbers that read back as it, all over one
denominator. -/
structure Interval where
  low : Nat
  value : Nat
  high : Nat
  denominator : Nat
  closed : Bool

/-- The numbers that are read as `m * 2 ^ q`: up to halfway to either neighbour, a number halfway
going to the even significand. -/
def interval (m : Nat) (q : Int) (closeBelow : Bool) : Interval :=
  let up := Nat.pow 2 (q - 2).toNat
  { low := (4 * m - if closeBelow then 1 else 2) * up
    value := 4 * m * up
    high := (4 * m + 2) * up
    denominator := Nat.pow 2 (2 - q).toNat
    closed := m % 2 = 0 }

namespace Interval

/-- The exponent of the least power of ten above the fraction. -/
def magnitude (i : Interval) : Int :=
  if i.denominator ≤ i.value then digitCount (i.value / i.denominator)
  else 1 - digitCount ((i.denominator + i.value - 1) / i.value - 1)

def scale (i : Interval) (exponent : Int) : Interval :=
  let up := Nat.pow 10 (-exponent).toNat
  { i with
    low := i.low * up, value := i.value * up, high := i.high * up
    denominator := i.denominator * Nat.pow 10 exponent.toNat }

def holdsBelow (i : Interval) (n : Nat) : Bool :=
  i.low < n * i.denominator || (i.closed && i.low = n * i.denominator)

def holdsAbove (i : Interval) (n : Nat) : Bool :=
  n * i.denominator < i.high || (i.closed && n * i.denominator = i.high)

def nearest (tie : Tie) (i : Interval) : Nat :=
  let n := i.value / i.denominator
  let rest := 2 * (i.value % i.denominator)
  if rest < i.denominator then n
  else if i.denominator < rest then n + 1
  else match tie with
    | .up => n + 1
    | .even => n + n % 2

def whole? (tie : Tie) (i : Interval) : Option Nat :=
  let n := i.value / i.denominator
  match i.holdsBelow n, i.holdsAbove (n + 1) with
  | true, true => some (i.nearest tie)
  | true, false => some n
  | false, true => some (n + 1)
  | false, false => none

end Interval

def strip : (fuel : Nat) → Decimal → Decimal
  | 0, d => d
  | n + 1, d => if d.digits % 10 = 0 then strip n ⟨d.digits / 10, d.exponent + 1⟩ else d

def search (tie : Tie) (i : Interval) (n : Nat) : (more : Nat) → Decimal
  | 0 => ⟨0, 0⟩
  | more + 1 =>
    let exponent := i.magnitude - n
    match (i.scale exponent).whole? tie with
    | some digits => strip n ⟨digits, exponent⟩
    | none => search tie i (n + 1) more

/-- The shortest decimal that is read as `m * 2 ^ q`, which is not zero. It has no more than 17
digits. -/
def shortest (tie : Tie) (m : Nat) (q : Int) (closeBelow : Bool) : Decimal :=
  search tie (interval m q closeBelow) 1 17

end Decimal

end TypeLang
