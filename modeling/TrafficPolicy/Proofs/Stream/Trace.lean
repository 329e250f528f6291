import TrafficPolicy.Stream.Sink

/-!
# What a caller pushes and what a sink sees of it

A caller writes and flushes, one call after the other. A traced sink remembers the calls that reach it: those
that have succeeded, and the one that has begun and has not. The bytes of a write count as received from its
beginning, so that a sink has received no more than that wherever a call may end.
-/

namespace TrafficPolicy.Stream

inductive Push where
  | write (bytes : Bytes)
  | flush
deriving DecidableEq, Repr

def Push.bytes : Push → Bytes
  | .write bytes => bytes
  | .flush => []

def bytesOf (pushes : List Push) : Bytes :=
  pushes.flatMap Push.bytes

@[simp] theorem bytesOf_nil : bytesOf [] = [] := rfl

@[simp] theorem bytesOf_cons (push : Push) (pushes : List Push) :
    bytesOf (push :: pushes) = push.bytes ++ bytesOf pushes := rfl

@[simp] theorem bytesOf_append (a b : List Push) : bytesOf (a ++ b) = bytesOf a ++ bytesOf b :=
  List.flatMap_append

/-- The calls that have reached a sink. -/
structure Trace where
  done : List Push := []
  /-- The call that has begun and has not succeeded. -/
  pending : Option Push := none
deriving DecidableEq, Repr

namespace Trace

/-- All calls that have begun. -/
def begun (t : Trace) : List Push :=
  t.done ++ t.pending.toList

def received (t : Trace) : Bytes :=
  bytesOf t.begun

def enter (t : Trace) (push : Push) : Trace :=
  { t with pending := some push }

def leave (t : Trace) (push : Push) : Trace :=
  ⟨t.done ++ [push], none⟩

end Trace

variable {σ : Type}

namespace Sink

def push (sink : Sink σ) : Push → Call σ Unit
  | .write bytes => sink.write bytes
  | .flush => sink.flush

def tracing (push : Push) (call : Call σ Unit) : Call (Trace × σ) Unit := do
  Call.setOwn ((← Call.own).enter push)
  Call.inner call
  Call.setOwn ((← Call.own).leave push)

def traced (inner : Sink σ) : Sink (Trace × σ) where
  divisible := inner.divisible
  write data := tracing (.write data) (inner.write data)
  flush := tracing .flush inner.flush
  reset := Call.inner inner.reset

/-- The run of a caller that waits before each call, and stops at the first one that does not succeed. -/
def pushAll (sink : Sink σ) (horizon : Option Nat) : List (Nat × Push) → Nat → σ → Ended σ Unit
  | [], now, s => ⟨.ok (), now, s⟩
  | (wait, push) :: rest, now, s =>
    match (sink.push push).run horizon (now + wait) s with
    | ⟨.ok _, time, s⟩ => pushAll sink horizon rest time s
    | ended => ended

end Sink

end TrafficPolicy.Stream
