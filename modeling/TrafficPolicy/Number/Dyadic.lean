/-!
# The exact value of a float

A finite 64-bit float is `±significand * 2 ^ exponent` with natural significand. Scaling it to a
whole number of some unit rounds the exact quotient once, to the nearest whole number, a half to the
even neighbour. Fixed-point text and clock durations are both such scalings.
-/

namespace TrafficPolicy.Number

/-- The quotient rounded to the nearest whole number, a half to the even neighbour. -/
def roundDiv (num den : Nat) : Nat :=
  let q := num / den
  let r := num % den
  if 2 * r < den then q
  else if den < 2 * r then q + 1
  else q + q % 2

/-- The number `±significand * 2 ^ exponent`. -/
structure Dyadic where
  negative : Bool
  significand : Nat
  exponent : Int
deriving DecidableEq, Repr

inductive Magnitude where
  | undefined
  | infinite (negative : Bool)
  | finite (value : Dyadic)
deriving DecidableEq, Repr

/-- Reads sign, exponent and fraction off the 64 bits of a float. -/
def Magnitude.ofFloat (x : Float) : Magnitude :=
  let bits : Nat := x.toBits.toNat
  let negative := bits / 0x8000000000000000 == 1
  let biased : Nat := bits / 0x10000000000000 % 0x800
  let fraction : Nat := bits % 0x10000000000000
  if biased = 2047 then
    if fraction = 0 then .infinite negative else .undefined
  else if biased = 0 then .finite ⟨negative, fraction, -1074⟩
  else .finite ⟨negative, 0x10000000000000 + fraction, (biased : Int) - 1075⟩

/-- The absolute value in units of `1 / scale`, rounded to a whole number. -/
def Dyadic.scaled (d : Dyadic) (scale : Nat) : Nat :=
  match d.exponent with
  | .ofNat e => d.significand * Nat.pow 2 e * scale
  | .negSucc e => roundDiv (d.significand * scale) (Nat.pow 2 (e + 1))

end TrafficPolicy.Number
