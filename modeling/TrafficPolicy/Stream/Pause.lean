import TrafficPolicy.Stream.Sink

/-!
# A wait before a response

The wait happens once, before the first write or flush. If it is for the body only, it happens after the
first flush that succeeds, which ends the header.
-/

namespace TrafficPolicy.Stream

structure Pause where
  /-- The wait that is still to come. -/
  wait : Option Nat
  inBody : Bool
deriving DecidableEq, Repr

namespace Pause

variable {σ : Type}

def beforeAll (wait : Nat) : Pause := ⟨some wait, true⟩

def beforeBody (wait : Nat) : Pause := ⟨some wait, false⟩

def settle : Call (Pause × σ) Unit := do
  let pause ← Call.own
  match pause.wait with
  | some wait =>
    if pause.inBody then
      Call.setOwn { pause with wait := none }
      Call.sleep wait
  | none => pure ()

def sink (inner : Sink σ) : Sink (Pause × σ) where
  divisible := inner.divisible
  write data := do
    settle
    Call.inner (inner.write data)
  flush := do
    settle
    Call.inner inner.flush
    Call.setOwn { ← Call.own with inBody := true }
  reset := Call.inner inner.reset

end Pause

end TrafficPolicy.Stream
