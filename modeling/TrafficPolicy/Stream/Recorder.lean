import TrafficPolicy.Stream.Sink

/-!
# Sinks that keep what reaches them

A recorder keeps the writes, flushes and resets that reach it, with their times. Its plan says which of them
fail and how long a write takes. A writer does the same behind a writer that takes a limited number of bytes
at once.
-/

namespace TrafficPolicy.Stream

inductive Action where
  | write (bytes : Bytes)
  | flush
  | reset
deriving DecidableEq, Repr

structure Event where
  time : Nat
  action : Action
  failed : Bool
deriving DecidableEq, Repr

/-- Which calls fail, counted from zero for each kind, and how long a write takes. -/
structure Plan where
  failWrite : Option Nat := none
  failFlush : Option Nat := none
  failReset : Option Nat := none
  writeTime : Nat := 0
deriving DecidableEq, Repr

/-- What has reached a sink, the latest first, with the numbers of calls of each kind. -/
structure Record where
  events : List Event := []
  writes : Nat := 0
  flushes : Nat := 0
  resets : Nat := 0
deriving DecidableEq, Repr

namespace Record

def add (r : Record) (plan : Plan) (time : Nat) : Action → Event × Record
  | .write bytes =>
    let event := ⟨time, .write bytes, plan.failWrite == some r.writes⟩
    (event, { r with events := event :: r.events, writes := r.writes + 1 })
  | .flush =>
    let event := ⟨time, .flush, plan.failFlush == some r.flushes⟩
    (event, { r with events := event :: r.events, flushes := r.flushes + 1 })
  | .reset =>
    let event := ⟨time, .reset, plan.failReset == some r.resets⟩
    (event, { r with events := event :: r.events, resets := r.resets + 1 })

end Record

def Action.fault : Action → Fault
  | .write _ => .broken "sink write failed"
  | .flush => .broken "sink flush failed"
  | .reset => .broken "sink reset failed"

/-- Keeps an action, and fails if that is the plan. -/
def record (plan : Plan) (action : Action) : Call Record Unit := do
  let (event, r) := (← Call.state).add plan (← Call.now) action
  Call.modify fun _ => r
  if event.failed then Call.fail action.fault

def recorder (divisible : Bool) (plan : Plan) : Sink Record where
  divisible := divisible
  write data := do
    Call.sleep plan.writeTime
    record plan (.write data)
  flush := record plan .flush
  reset := record plan .reset

/-- The parts in which a writer takes bytes, at most `accept` at once. -/
def parts (accept : Nat) (data : Bytes) : List Bytes :=
  if h : data = [] ∨ accept = 0 then []
  else
    have := List.length_pos_iff.2 fun hd => h (.inl hd)
    have : 0 < accept := Nat.pos_of_ne_zero fun ha => h (.inr ha)
    data.take accept :: parts accept (data.drop accept)
termination_by data.length
decreasing_by
  simp only [List.length_drop]
  omega

def writeAll (plan : Plan) (accept : Option Nat) (data : Bytes) : Call Record Unit :=
  if data.isEmpty then pure ()
  else
    match accept with
    | none => record plan (.write data)
    | some 0 => do
      record plan (.write [])
      Call.fail .writeZero
    | some accept => Call.each (parts accept data) fun part => record plan (.write part)

def writer (divisible : Bool) (plan : Plan) (accept : Option Nat) : Sink Record where
  divisible := divisible
  write := writeAll plan accept
  flush := record plan .flush
  reset := record plan .reset

end TrafficPolicy.Stream
