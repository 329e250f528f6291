/-!
# The clock

Time is counted in nanoseconds. Timers are coarser: one fires at the first whole millisecond that is not
before its deadline.
-/

namespace TrafficPolicy.Clock

/-- The length of a millisecond. -/
def tick : Nat := 1000000

/-- The first whole millisecond that is not before a time. -/
def roundUp (time : Nat) : Nat :=
  (time + (tick - 1)) / tick * tick

/-- The time at which a wait for a deadline ends that begins at `now`. -/
def wake (now deadline : Nat) : Nat :=
  if deadline ≤ now then now else roundUp deadline

theorem le_roundUp (time : Nat) : time ≤ roundUp time := by
  unfold roundUp tick
  omega

theorem le_wake (now deadline : Nat) : now ≤ wake now deadline := by
  have := le_roundUp deadline
  unfold wake
  split <;> omega

theorem deadline_le_wake (now deadline : Nat) : deadline ≤ wake now deadline := by
  have := le_roundUp deadline
  unfold wake
  split <;> omega

end TrafficPolicy.Clock
