import TrafficPolicy.Number.Dyadic
import TrafficPolicy.Text.Blank

/-!
# Fixed-point text of a float

A float is written with at most six decimals of its exact value and without zeros at the end. The
sign of a negative zero is kept.
-/

namespace TrafficPolicy.Number

/-- How many decimals are written at most. -/
def places : Nat := 6

/-- The decimal digits of `n`, with leading zeros up to `width` digits. -/
def paddedDigits (width n : Nat) : List Char :=
  let digits := Nat.toDigits 10 n
  List.replicate (width - digits.length) '0' ++ digits

/-- A whole number of millionths as decimal text without zeros at the end. -/
def millionthsText (n : Nat) : List Char :=
  let unit := Nat.pow 10 places
  let fraction := Text.dropTailWhile (· == '0') (paddedDigits places (n % unit))
  Nat.toDigits 10 (n / unit) ++ if fraction.isEmpty then [] else '.' :: fraction

def fixedText (x : Float) : String :=
  match Magnitude.ofFloat x with
  | .undefined => "NaN"
  | .infinite true => "-inf"
  | .infinite false => "inf"
  | .finite d =>
    let text := String.ofList (millionthsText (d.scaled (Nat.pow 10 places)))
    if d.negative then "-" ++ text else text

end TrafficPolicy.Number
