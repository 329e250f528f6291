import TrafficPolicy.Stream.Call

/-!
# Where a response goes

A sink takes the bytes of a response. It can be told to pass on what it has taken so far, and to break the
connection off. Some sinks want each write in one piece.
-/

namespace TrafficPolicy.Stream

/-- The bytes of one write. -/
abbrev Bytes := List UInt8

structure Sink (σ : Type) where
  /-- Whether a write may be cut into several smaller ones. -/
  divisible : Bool
  write : Bytes → Call σ Unit
  flush : Call σ Unit
  reset : Call σ Unit

/-- A sink that nothing reaches but a reset. -/
def Sink.discarding {σ : Type} (inner : Sink σ) : Sink σ where
  divisible := inner.divisible
  write _ := pure ()
  flush := pure ()
  reset := inner.reset

end TrafficPolicy.Stream
