import TrafficPolicy.Quantity.Duration
import TrafficPolicy.Stream.Sink

/-!
# A limit to the rate of a response

A window begins with the response. By any time as many bytes may have been sent since its start as the rate
gives; a writer that has used this up waits half a second. A window that is older than five seconds and in
which more than a second's worth has not been used begins anew, so that idle time cannot be saved up. A
write that may not be cut is passed on at once, and the writer is held for as long as it would have taken.
-/

namespace TrafficPolicy.Stream

structure Meter where
  /-- Bytes in a second. -/
  rate : Float
  /-- The bytes sent in the window. -/
  written : Nat
  windowStart : Nat
deriving DecidableEq

namespace Meter

variable {σ : Type}

def starting (now : Nat) (rate : Float) : Meter := ⟨rate, 0, now⟩

/-- The wait of a writer that has used up what it may send. -/
def pause : Nat := 500000000

/-- The age from which a window may begin anew. -/
def idleAge : Nat := 5 * Duration.nanosPerSecond

/-- The time whose worth of bytes may be unused without the writer being idle. -/
def idleSlack : Nat := Duration.nanosPerSecond

def budget (m : Meter) (duration : Nat) : Float :=
  Duration.secondsOf duration * m.rate

/-- What has not been used of the window at a time. -/
def unused (m : Meter) (now : Nat) : Float :=
  m.budget (now - m.windowStart) - Float.ofNat m.written

/-- Whether the window begins anew at a time. -/
def isIdle (m : Meter) (now : Nat) : Bool :=
  idleAge < now - m.windowStart && m.unused now > m.budget idleSlack

/-- The window that counts at a time. -/
def refresh (m : Meter) (now : Nat) : Meter :=
  if m.isIdle now then { m with written := 0, windowStart := now } else m

def allowance (m : Meter) (now : Nat) : Option Nat :=
  let unused := m.unused now
  if unused < 1.0 then none else some unused.toUInt64.toNat

def add (m : Meter) (count : Nat) : Meter :=
  { m with written := m.written + count }

/-- Enough rounds for a write that starts at `now`: more than can be spent on waiting for each byte at the
rate, or on waiting for the horizon. -/
def rounds (m : Meter) (length : Nat) (horizon : Option Nat) : Nat :=
  let total := m.written + length
  (length + 1) * (16 * total + 64 + 4 * (Float.ofNat total / m.rate).toUInt64.toNat) +
    horizon.getD 0 / pause

/-- One round of a write: sends what may be sent, or waits. What is left, if anything, is for the next
round. -/
def round (inner : Sink σ) (rest : Bytes) : Call (Meter × σ) (Bytes ⊕ Unit) :=
  if rest.isEmpty then pure (.inr ())
  else do
    let now ← Call.now
    let meter := (← Call.own).refresh now
    Call.setOwn meter
    match meter.allowance now with
    | none =>
      Call.sleep pause
      return .inl rest
    | some count =>
      let piece := rest.take count
      Call.inner (inner.write piece)
      Call.inner inner.flush
      Call.setOwn (meter.add piece.length)
      return .inl (rest.drop count)

/-- How long a write that may not be cut is held. -/
def hold (m : Meter) (length : Nat) : Nat :=
  Duration.waitNanos (Float.ofNat length / m.rate)

/-- Passes a write on as it is and waits for as long as it would have taken. -/
def writeWhole (inner : Sink σ) (data : Bytes) : Call (Meter × σ) Unit := do
  let now ← Call.now
  let meter ← Call.own
  Call.inner (inner.write data)
  Call.sleepUntil (now + meter.hold data.length)

def writeMetered (inner : Sink σ) (data : Bytes) : Call (Meter × σ) Unit := do
  let meter ← Call.own
  let horizon ← Call.horizon
  Call.repeatFor (meter.rounds data.length horizon) data (round inner)

def sink (inner : Sink σ) : Sink (Meter × σ) where
  divisible := inner.divisible
  write data := if inner.divisible then writeMetered inner data else writeWhole inner data
  flush := Call.inner inner.flush
  reset := Call.inner inner.reset

end Meter

end TrafficPolicy.Stream
