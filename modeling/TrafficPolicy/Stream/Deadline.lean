import TrafficPolicy.Quantity.Duration
import TrafficPolicy.Stream.Sink

/-!
# A limit to how long a response takes

Once the deadline has come the connection is broken off, and every write of something and every flush
fails. A write that may be cut is passed on in slices, so that the deadline is looked at often; a slice that
is not done at the deadline is broken off.
-/

namespace TrafficPolicy.Stream

structure Deadline where
  time : Nat
  /-- Whether the connection has been broken off. -/
  expired : Bool
deriving DecidableEq, Repr

namespace Deadline

variable {σ α : Type}

def after (now limit : Nat) : Deadline :=
  ⟨now + min limit Duration.maxNanos, false⟩

def sliceLength : Nat := 4096

def slices (data : Bytes) : List Bytes :=
  if h : data = [] then []
  else
    have := List.length_pos_iff.2 h
    data.take sliceLength :: slices (data.drop sliceLength)
termination_by data.length
decreasing_by
  simp only [List.length_drop, sliceLength]
  omega

def isOver (d : Deadline) (now : Nat) : Bool :=
  d.expired || d.time ≤ now

/-- Breaks the connection off, if that has not been done, and fails. -/
def expire (inner : Sink σ) : Call (Deadline × σ) α := do
  let d ← Call.own
  if !d.expired then
    Call.setOwn { d with expired := true }
    Call.attempt (Call.inner inner.reset)
  Call.fail .timedOut

def writeSlice (inner : Sink σ) (slice : Bytes) : Call (Deadline × σ) Unit := do
  let d ← Call.own
  if d.isOver (← Call.now) then expire inner
  else Call.within d.time (Call.inner (inner.write slice)) (expire inner)

def sink (inner : Sink σ) : Sink (Deadline × σ) where
  divisible := inner.divisible
  write data :=
    if inner.divisible then Call.each (slices data) (writeSlice inner) else writeSlice inner data
  flush := do
    let d ← Call.own
    if d.isOver (← Call.now) then expire inner else Call.inner inner.flush
  reset := do
    Call.setOwn { ← Call.own with expired := true }
    Call.inner inner.reset

/-! ## What a limit makes of a call -/

section Run

variable {inner : Sink σ} {data : Bytes} {horizon : Option Nat} {now : Nat} {d : Deadline} {s : σ}

theorem writeSlice_run :
    (writeSlice inner data).run horizon now (d, s) =
      (if d.isOver now then expire inner
        else Call.within d.time (Call.inner (inner.write data)) (expire inner)).run horizon now (d, s) := rfl

theorem write_run (h : inner.divisible = false) :
    ((sink inner).write data).run horizon now (d, s) =
      (if d.isOver now then expire inner
        else Call.within d.time (Call.inner (inner.write data)) (expire inner)).run horizon now (d, s) := by
  simp only [sink, h, Bool.false_eq_true, if_false]
  exact writeSlice_run

theorem flush_run :
    (sink inner).flush.run horizon now (d, s) =
      (if d.isOver now then expire inner else Call.inner inner.flush).run horizon now (d, s) := rfl

end Run

end Deadline

end TrafficPolicy.Stream
