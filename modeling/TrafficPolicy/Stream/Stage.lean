import TrafficPolicy.Stream.Deadline
import TrafficPolicy.Stream.Framer
import TrafficPolicy.Stream.Meter
import TrafficPolicy.Stream.Pause

/-!
# Stages on the way to a sink

A response passes through stages, each of which hands on what it gets to the next one. A sink behind some
stages is a sink again, whose state is the states of the stages and that of the sink.
-/

namespace TrafficPolicy.Stream

inductive Stage where
  /-- Nothing gets through but a reset. -/
  | discard
  | pause (pause : Pause)
  | deadline (deadline : Deadline)
  | framer (framer : Framer)
  | meter (meter : Meter)
deriving DecidableEq

namespace Stage

variable {σ : Type}

def use (inner : Sink σ) (action : {τ : Type} → Sink τ → Call τ Unit) : Call (Stage × σ) Unit :=
  Call.choose fun
    | .discard => Call.inner (action inner.discarding)
    | .pause p => Call.keeping .pause p (action (Pause.sink inner))
    | .deadline d => Call.keeping .deadline d (action (Deadline.sink inner))
    | .framer f => Call.keeping .framer f (action (Framer.sink inner))
    | .meter m => Call.keeping .meter m (action (Meter.sink inner))

def sink (inner : Sink σ) : Sink (Stage × σ) where
  divisible := inner.divisible
  write data := use inner fun next => next.write data
  flush := use inner fun next => next.flush
  reset := use inner fun next => next.reset

end Stage

/-- The state of a sink behind some stages. -/
def Nest (σ : Type) : Nat → Type
  | 0 => σ
  | n + 1 => Stage × Nest σ n

namespace Nest

variable {σ : Type}

/-- The state in which the first of the stages is the outermost. -/
def ofStages : (stages : List Stage) → σ → Nest σ stages.length
  | [], s => s
  | stage :: rest, s => (stage, ofStages rest s)

def base : (n : Nat) → Nest σ n → σ
  | 0, s => s
  | n + 1, s => base n s.2

def stages : (n : Nat) → Nest σ n → List Stage
  | 0, _ => []
  | n + 1, s => s.1 :: stages n s.2

theorem base_ofStages (stages : List Stage) (s : σ) : base _ (ofStages stages s) = s := by
  induction stages with
  | nil => rfl
  | cons stage rest ih => exact ih

theorem stages_ofStages (list : List Stage) (s : σ) : stages _ (ofStages list s) = list := by
  induction list with
  | nil => rfl
  | cons stage rest ih => exact congrArg (stage :: ·) ih

end Nest

def Sink.behind {σ : Type} (inner : Sink σ) : (n : Nat) → Sink (Nest σ n)
  | 0 => inner
  | n + 1 => Stage.sink (inner.behind n)

theorem Sink.divisible_behind {σ : Type} (inner : Sink σ) (n : Nat) :
    (inner.behind n).divisible = inner.divisible := by
  induction n with
  | zero => rfl
  | succ n ih => exact ih

end TrafficPolicy.Stream
