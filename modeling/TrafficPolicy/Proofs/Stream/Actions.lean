import TrafficPolicy.Proofs.Stream.Arrivals
import TrafficPolicy.Stream.Recorder

/-!
# What a sink is asked to do

A logged sink keeps each write, flush and reset from the moment at which it begins, whatever becomes of it. A
session is what a caller does in front of some stages behind which there is a logged sink; the caller goes on
after calls that fail.
-/

namespace TrafficPolicy.Stream

variable {σ : Type}

namespace Sink

def logging (action : Action) (call : Call σ Unit) : Call (List Action × σ) Unit := do
  Call.setOwn ((← Call.own) ++ [action])
  Call.inner call

def logged (inner : Sink σ) : Sink (List Action × σ) where
  divisible := inner.divisible
  write data := logging (.write data) (inner.write data)
  flush := logging .flush inner.flush
  reset := logging .reset inner.reset

end Sink

/-- What a logged sink behind some stages has been asked to do. -/
def Nest.actions (n : Nat) (s : Nest (List Action × σ) n) : List Action := (Nest.base n s).1

def Nest.fresh (stages : List Stage) (s : σ) : Nest (List Action × σ) stages.length :=
  ofStages stages ([], s)

theorem Nest.actions_fresh (stages : List Stage) (s : σ) : actions _ (fresh stages s) = [] :=
  congrArg Prod.fst (base_ofStages stages ([], s))

/-- The run of a caller that begins at `now` in front of some stages, behind which is a logged sink. -/
def session (stages : List Stage) (inner : Sink σ) (now : Nat) (s : σ) (pushes : List (Nat × Push)) :
    Ended (Nest (List Action × σ) stages.length) Unit :=
  (inner.logged.behind stages.length).pushOn pushes now (Nest.fresh stages s)

end TrafficPolicy.Stream
