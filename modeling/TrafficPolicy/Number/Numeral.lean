/-!
# Numerals

Two kinds of numerals are read. A decimal numeral has an optional sign, digits with an optional
point among or beside them, and an optional power of ten; the words for infinity and for the
undefined number are numerals too. An integer numeral is an optional sign and digits, and has to fit
into a signed 64-bit word.
-/

namespace TrafficPolicy.Number

/-- The value of a digit list read after digits of value `start`. -/
def digitsValue (start : Nat) (digits : List Char) : Nat :=
  digits.foldl (fun n c => 10 * n + (c.toNat - '0'.toNat)) start

/-- Takes an optional sign; the flag says whether it was a minus. -/
def takeSign : List Char → Bool × List Char
  | '-' :: cs => (true, cs)
  | '+' :: cs => (false, cs)
  | cs => (false, cs)

/-- A decimal numeral: `±digits * 10 ^ exponent`, or one of the words. -/
inductive Numeral where
  | finite (negative : Bool) (digits : Nat) (exponent : Int)
  | infinite (negative : Bool)
  | undefined
deriving DecidableEq, Repr

/-- The value of the digits of a power of ten. Digits after a power that is beyond all floats do not
count. -/
def powerValue (digits : List Char) : Nat :=
  digits.foldl (fun n c => if n < 0x10000 then 10 * n + (c.toNat - '0'.toNat) else n) 0

/-- The power of ten written at the end of a numeral, zero if nothing is written. -/
def readExponent : List Char → Option Int
  | [] => some 0
  | e :: cs =>
    if e = 'e' ∨ e = 'E' then
      let (negative, digits) := takeSign cs
      if digits.isEmpty || !digits.all Char.isDigit then none
      else
        let n := powerValue digits
        some (if negative then -(n : Int) else n)
    else none

def readUnsigned (negative : Bool) (cs : List Char) : Option Numeral :=
  let word := String.ofList (cs.map Char.toLower)
  if word = "inf" ∨ word = "infinity" then some (.infinite negative)
  else if word = "nan" then some .undefined
  else
    let whole := cs.takeWhile Char.isDigit
    let rest := cs.dropWhile Char.isDigit
    let (fraction, rest) :=
      match rest with
      | '.' :: after => (after.takeWhile Char.isDigit, after.dropWhile Char.isDigit)
      | _ => ([], rest)
    if whole.isEmpty && fraction.isEmpty then none
    else
      (readExponent rest).map fun exponent =>
        .finite negative (digitsValue (digitsValue 0 whole) fraction)
          (exponent - fraction.length)

def Numeral.read? (cs : List Char) : Option Numeral :=
  let (negative, cs) := takeSign cs
  readUnsigned negative cs

/-- The float nearest to a numeral, a half to the even neighbour. -/
def Numeral.toFloat : Numeral → Float
  | .finite negative digits exponent =>
    let x := Float.ofScientific digits (decide (exponent < 0)) exponent.natAbs
    if negative then -x else x
  | .infinite negative => if negative then -(1.0 / 0.0) else 1.0 / 0.0
  | .undefined => 0.0 / 0.0

/-- The smallest number that is no nearer to a finite float than to infinity: half a unit of the last
place above the greatest float. -/
def overflowBound : Nat := 0x3FFFFFFFFFFFFF * Nat.pow 2 970

/-- Whether a numeral is finite, but the float nearest to it is not. Powers of ten that are certainly too
great or too small are not computed. -/
def Numeral.overflows : Numeral → Bool
  | .finite _ digits (.ofNat exponent) => overflowBound ≤ digits * Nat.pow 10 (min exponent 310)
  | .finite _ digits (.negSucc exponent) =>
    overflowBound ≤ digits / Nat.pow 10 (min (exponent + 1) (digits.log2 + 1))
  | _ => false

/-- Whether an integer fits into a signed 64-bit word. -/
def fitsWord (n : Int) : Bool :=
  -0x8000000000000000 ≤ n && n < 0x8000000000000000

def readInteger? (cs : List Char) : Option Int :=
  let (negative, digits) := takeSign cs
  if digits.isEmpty || !digits.all Char.isDigit then none
  else
    let n := (digitsValue 0 digits : Int)
    let value := if negative then -n else n
    if fitsWord value then some value else none

end TrafficPolicy.Number
