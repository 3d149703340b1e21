namespace TypeLang.Text

inductive NumeralFault : Type
  | empty
  | badDigit
  | tooLarge
  deriving DecidableEq, Repr

def NumeralFault.message : NumeralFault → String
  | .empty => "cannot parse integer from empty string"
  | .badDigit => "invalid digit found in string"
  | .tooLarge => "number too large to fit in target type"

/-- The value of a digit or an ASCII letter of either case, if it is below `radix`. -/
def digit? (radix : Nat) (c : Char) : Option Nat :=
  let value? :=
    if '0' ≤ c ∧ c ≤ '9' then some (c.toNat - '0'.toNat)
    else if 'a' ≤ c ∧ c ≤ 'z' then some (c.toNat - 'a'.toNat + 10)
    else if 'A' ≤ c ∧ c ≤ 'Z' then some (c.toNat - 'A'.toNat + 10)
    else none
  value?.filter (· < radix)

def readDigits (radix limit : Nat) (acc : Nat) : List Char → Except NumeralFault Nat
  | [] => .ok acc
  | c :: cs =>
    match digit? radix c with
    | none => .error .badDigit
    | some d =>
      if acc * radix + d < limit then readDigits radix limit (acc * radix + d) cs
      else .error .tooLarge

/-- A number below `limit`. A plus sign may stand before its digits; a lone sign is a bad digit. -/
def readNat (radix limit : Nat) : List Char → Except NumeralFault Nat
  | [] => .error .empty
  | ['+'] => .error .badDigit
  | '+' :: cs => readDigits radix limit 0 cs
  | cs => readDigits radix limit 0 cs

def readInt? (radix limit : Nat) : List Char → Option Int
  | ['-'] => none
  | '-' :: cs => (readDigits radix (limit + 1) 0 cs).toOption.map fun n => -(n : Int)
  | cs => (readNat radix limit cs).toOption.map Int.ofNat

def hexDigits : (width : Nat) → (n : Nat) → List Char
  | 0, _ => []
  | w + 1, n => hexDigits w (n / 16) ++ [(n % 16).digitChar]

def hex8 (n : UInt32) : String := String.ofList (hexDigits 8 n.toNat)

def hex2 (b : UInt8) : List Char := hexDigits 2 b.toNat

end TypeLang.Text
