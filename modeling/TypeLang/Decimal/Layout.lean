import TypeLang.Decimal.Shortest

namespace TypeLang

namespace Decimal

structure Layout where
  tie : Tie
  /-- The exponents of the first digit for which the form is positional; all of them if none are
  given. -/
  positional : Option (Int × Int)
  /-- What follows a whole number. -/
  wholeEnd : String
  /-- The sign of an exponent that is not negative. -/
  exponentPlus : String

def zeros (n : Nat) : String := String.ofList (List.replicate n '0')

def placePoint (l : Layout) (digits : List Char) (point : Int) : String :=
  if point ≤ 0 then "0." ++ zeros (-point).toNat ++ String.ofList digits
  else if digits.length ≤ point.toNat then
    String.ofList digits ++ zeros (point.toNat - digits.length) ++ l.wholeEnd
  else String.ofList (digits.take point.toNat) ++ "." ++ String.ofList (digits.drop point.toNat)

def placeExponent (l : Layout) (digits : List Char) (exponent : Int) : String :=
  let mantissa :=
    match digits with
    | [] | [_] => String.ofList digits
    | d :: rest => String.ofList [d, '.'] ++ String.ofList rest
  mantissa ++ "e" ++ (if exponent < 0 then "" else l.exponentPlus) ++ toString exponent

def render (d : Decimal) (l : Layout) : String :=
  let digits := Nat.toDigits 10 d.digits
  let first := d.exponent + digits.length - 1
  if l.positional.all fun (low, high) => low ≤ first && first ≤ high then
    placePoint l digits (first + 1)
  else placeExponent l digits first

end Decimal

def Double.renderFinite? (l : Decimal.Layout) (d : Double) : Option String :=
  let sign := if d.isNegative then "-" else ""
  match d.magnitude with
  | .finite m q closeBelow =>
    if m = 0 then some (sign ++ "0" ++ l.wholeEnd)
    else some (sign ++ (Decimal.shortest l.tie m q closeBelow).render l)
  | _ => none

def Double.render (l : Decimal.Layout) (d : Double) : String :=
  match d.magnitude with
  | .nan => "NaN"
  | .infinite => if d.isNegative then "-inf" else "inf"
  | .finite .. => (d.renderFinite? l).getD ""

end TypeLang
