import TrafficPolicy.Number.Numeral
import TrafficPolicy.Toml.Quoted
import TrafficPolicy.Toml.Value

/-!
# Plain values of a configuration

Truth values, whole numbers in four bases, numbers with a point or an exponent, and dates and times. Single
underscores may stand between digits.
-/

namespace TrafficPolicy.Toml

def isPlain (c : Char) : Bool :=
  c.isAlphanum || c == '+' || c == '-' || c == '_' || c == '.' || c == ':'

/-- Digits without the underscores between them. -/
def plainDigits? (isDigit : Char → Bool) (cs : List Char) : Option (List Char) :=
  if (Text.splitOn '_' cs).all fun run => !run.isEmpty && run.all isDigit then
    some (cs.filter (· != '_'))
  else none

def isHexDigit (c : Char) : Bool :=
  c.isDigit || ('a' ≤ c && c ≤ 'f') || ('A' ≤ c && c ≤ 'F')

def digitsIn (base : Nat) (digits : List Char) : Nat :=
  digits.foldl (fun n c =>
    base * n + ((if c.toNat < 128 then Text.hexValue? (UInt8.ofNat c.toNat) else none).getD 0)) 0

def unsigned : List Char → Bool × List Char
  | '+' :: cs => (false, cs)
  | '-' :: cs => (true, cs)
  | cs => (false, cs)

/-- Decimal digits without leading zeros. -/
def wholePart? (cs : List Char) : Option (List Char) := do
  let digits ← plainDigits? Char.isDigit cs
  if 1 < digits.length ∧ digits.head? = some '0' then none else some digits

def integer? : List Char → Option Int
  | '0' :: 'x' :: digits => (plainDigits? isHexDigit digits).map fun digits => digitsIn 16 digits
  | '0' :: 'o' :: digits =>
    (plainDigits? (fun c => '0' ≤ c && c ≤ '7') digits).map fun digits => digitsIn 8 digits
  | '0' :: 'b' :: digits =>
    (plainDigits? (fun c => c == '0' || c == '1') digits).map fun digits => digitsIn 2 digits
  | cs =>
    let (negative, digits) := unsigned cs
    (wholePart? digits).map fun digits =>
      if negative then -(digitsIn 10 digits : Int) else digitsIn 10 digits

def isExponent (cs : List Char) : Bool :=
  (plainDigits? Char.isDigit (unsigned cs).2).isSome

def isFraction (cs : List Char) : Bool :=
  let digits := cs.takeWhile fun c => c != 'e' && c != 'E'
  (plainDigits? Char.isDigit digits).isSome &&
    match cs.drop digits.length with
    | [] => true
    | _ :: exponent => isExponent exponent

def isFloat (cs : List Char) : Bool :=
  let number := (unsigned cs).2
  if number = "inf".toList || number = "nan".toList then true
  else
    let whole := number.takeWhile fun c => c != '.' && c != 'e' && c != 'E'
    (wholePart? whole).isSome &&
      match number.drop whole.length with
      | '.' :: fraction => isFraction fraction
      | _ :: exponent => isExponent exponent
      | [] => false

/-- A number of exactly so many digits, up to a bound. -/
def fixedNumber? (width bound : Nat) (cs : List Char) : Option Nat :=
  if cs.length = width && cs.all Char.isDigit && digitsIn 10 cs ≤ bound then
    some (digitsIn 10 cs)
  else none

def daysIn (year month : Nat) : Nat :=
  if month = 2 then if year % 4 = 0 && (year % 100 != 0 || year % 400 = 0) then 29 else 28
  else if month = 4 || month = 6 || month = 9 || month = 11 then 30
  else 31

def isDate (cs : List Char) : Bool :=
  match Text.splitOn '-' cs with
  | [year, month, day] =>
    match fixedNumber? 4 9999 year, fixedNumber? 2 12 month, fixedNumber? 2 31 day with
    | some year, some month, some day => 1 ≤ month && 1 ≤ day && day ≤ daysIn year month
    | _, _, _ => false
  | _ => false

def isSeconds (cs : List Char) : Bool :=
  (fixedNumber? 2 60 (cs.take 2)).isSome &&
    match cs.drop 2 with
    | [] => true
    | '.' :: fraction => !fraction.isEmpty && fraction.all Char.isDigit
    | _ => false

def isTime (cs : List Char) : Bool :=
  match Text.splitOn ':' cs with
  | [hour, minute] => (fixedNumber? 2 23 hour).isSome && (fixedNumber? 2 59 minute).isSome
  | [hour, minute, seconds] =>
    (fixedNumber? 2 23 hour).isSome && (fixedNumber? 2 59 minute).isSome && isSeconds seconds
  | _ => false

/-- Whether a text is a time with its distance from universal time, or without. -/
def isZonedTime (cs : List Char) : Bool :=
  if cs.getLast?.any fun c => c == 'Z' || c == 'z' then isTime cs.dropLast
  else
    let time := cs.takeWhile fun c => c != '+' && c != '-'
    isTime time &&
      match cs.drop time.length with
      | [] => true
      | _ :: offset =>
        match Text.splitOn ':' offset with
        | [hour, minute] => (fixedNumber? 2 23 hour).isSome && (fixedNumber? 2 59 minute).isSome
        | _ => false

/-- Whether a text is a date, a time, or both with one character between them. -/
def isDatetime (cs : List Char) : Bool :=
  isDate cs || isTime cs ||
    (isDate (cs.take 10) &&
      match cs.drop 10 with
      | c :: time => (c == 'T' || c == 't' || c == ' ') && isZonedTime time
      | [] => false)

def plainValue? (cs : List Char) : Option Value :=
  if cs = "true".toList then some (.boolean true)
  else if cs = "false".toList then some (.boolean false)
  else
    match integer? cs with
    | some value => some (.integer value)
    | none =>
      if isFloat cs then (Number.Numeral.read? (cs.filter (· != '_'))).map .float
      else if isDatetime cs then some (.datetime (String.ofList cs))
      else none

/-- Takes a plain value. A date may have a space between it and a time. -/
def readPlain : Reads Value := fun cs =>
  let text := cs.takeWhile isPlain
  let rest := cs.dropWhile isPlain
  match isDate text, rest with
  | true, ' ' :: more =>
    if more.head?.any Char.isDigit then
      (plainValue? (text ++ ' ' :: more.takeWhile isPlain)).map (·, more.dropWhile isPlain)
    else (plainValue? text).map (·, rest)
  | _, _ => (plainValue? text).map (·, rest)

end TrafficPolicy.Toml
