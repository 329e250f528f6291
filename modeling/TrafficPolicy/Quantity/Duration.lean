import TrafficPolicy.Number.Fixed
import TrafficPolicy.Quantity.Amount

/-!
# Durations

A duration is written as an amount of milliseconds, seconds, minutes or hours and kept in seconds.
Timers run on whole nanoseconds, and no wait is longer than 366 days.
-/

namespace TrafficPolicy.Duration

/-- The units a duration is read in, with their length in seconds. The first that fits the end of
the text counts, and a text that ends in no unit is in seconds. -/
def unitOf (text : List Char) : List Char × Float :=
  match Text.stripEnd? ['m', 's'] text with
  | some literal => (literal, 0.001)
  | none =>
    match Text.stripEnd? ['h'] text with
    | some literal => (literal, 3600.0)
    | none =>
      match Text.stripEnd? ['m'] text with
      | some literal => (literal, 60.0)
      | none =>
        match Text.stripEnd? ['s'] text with
        | some literal => (literal, 1.0)
        | none => (text, 1.0)

/-- Reads a duration such as `500ms`, `1.5m`, `2h` or a bare `3` in seconds. -/
def read (input : String) : Except Reason Float :=
  let text := Text.lower (Text.trim input.toList)
  if text.isEmpty then .error .emptyDuration
  else
    let (literal, factor) := unitOf text
    (readAmount literal).map (· * factor)

/-- The units a duration is written in, the longest first. -/
def units : List (String × Float) :=
  [("h", 3600.0), ("m", 60.0), ("s", 1.0)]

/-- Writes seconds in the longest unit that gives at least one, or else in milliseconds. -/
def text (seconds : Float) : String :=
  match units.find? fun unit => unit.2 ≤ seconds with
  | some (name, factor) => Number.fixedText (seconds / factor) ++ name
  | none => Number.fixedText (seconds * 1000.0) ++ "ms"

def nanosPerSecond : Nat := 1000000000

def maxSeconds : Float := 31622400.0

def maxNanos : Nat := 31622400 * nanosPerSecond

/-- Whole nanoseconds, to the nearest, cut off at zero and at the longest wait. What is no number
is zero. -/
def nanos (seconds : Float) : Nat :=
  match Number.Magnitude.ofFloat seconds with
  | .undefined => 0
  | .infinite negative => if negative then 0 else maxNanos
  | .finite d => if d.negative then 0 else min (d.scaled nanosPerSecond) maxNanos

/-- Whole nanoseconds of a wait; what no clock can wait for counts as the longest wait. -/
def waitNanos (seconds : Float) : Nat :=
  match Number.Magnitude.ofFloat seconds with
  | .finite d =>
    if d.negative && d.significand != 0 then maxNanos
    else min (d.scaled nanosPerSecond) maxNanos
  | _ => maxNanos

def secondsOf (ns : Nat) : Float :=
  Float.ofNat (ns / nanosPerSecond) + Float.ofNat (ns % nanosPerSecond) / 1000000000.0

theorem nanos_le_maxNanos (seconds : Float) : nanos seconds ≤ maxNanos := by
  unfold nanos
  split
  · exact Nat.zero_le _
  · split
    · exact Nat.zero_le _
    · exact Nat.le_refl _
  · split
    · exact Nat.zero_le _
    · exact Nat.min_le_right _ _

end TrafficPolicy.Duration
