import TrafficPolicy.Number.Fixed
import TrafficPolicy.Quantity.Amount

/-!
# Transfer rates

A rate is written as an amount of bytes, kilobytes, megabytes or gigabytes per second, in steps of
1024, and kept in bytes per second.
-/

namespace TrafficPolicy.Rate

def kilo : Float := 1024.0
def mega : Float := kilo * kilo
def giga : Float := kilo * kilo * kilo

def unitOf (text : List Char) : List Char × Float :=
  match text.getLast? with
  | some 'k' => (text.dropLast, kilo)
  | some 'm' => (text.dropLast, mega)
  | some 'g' => (text.dropLast, giga)
  | _ => (text, 1.0)

/-- Reads a rate such as `1MB/s`, `512k`, `0.5mb` or `100`. -/
def read (input : String) : Except Reason Float := do
  let text := Text.lower (Text.trim input.toList)
  let text := (Text.stripEnd? ['/', 's'] text).getD text
  let text := (Text.stripEnd? ['b'] text).getD text
  let (literal, factor) := unitOf text
  if literal.isEmpty then .error .missingRate
  else
    let amount ← readAmount literal
    let rate := amount * factor
    if rate ≤ 0.0 then .error .rateNotPositive else .ok rate

def units : List (String × Float) :=
  [("GB", giga), ("MB", mega), ("KB", kilo)]

/-- Writes a rate in the largest unit that gives at least one, or else in bytes. -/
def text (rate : Float) : String :=
  match units.find? fun unit => unit.2 ≤ rate with
  | some (name, factor) => Number.fixedText (rate / factor) ++ name ++ "/s"
  | none => Number.fixedText rate ++ "B/s"

end TrafficPolicy.Rate
