import TrafficPolicy.Policy.Delay

/-!
# First requests

A drop counts from the first request for its target, which is always dropped; if its duration is zero no
other is. The tracker remembers for each target when it was first requested.
-/

namespace TrafficPolicy

structure DropTracker where
  firstSeen : List (String × Nat) := []
deriving DecidableEq, Repr

namespace DropTracker

def shouldDrop (tracker : DropTracker) (target : String) (policy : DelayPolicy) (now : Nat) :
    Bool × DropTracker :=
  match tracker.firstSeen.lookup target with
  | none => (true, ⟨(target, now) :: tracker.firstSeen⟩)
  | some first => (0.0 < policy.seconds && now - first < policy.nanos, tracker)

/-- Forgets a target, so that the next request counts as the first. -/
def reset (tracker : DropTracker) (target : String) : DropTracker :=
  ⟨tracker.firstSeen.filter fun entry => entry.1 != target⟩

def clear (_ : DropTracker) : DropTracker := {}

theorem lookup_reset_self (tracker : DropTracker) (target : String) :
    (tracker.reset target).firstSeen.lookup target = none := by
  simp only [reset]
  induction tracker.firstSeen with
  | nil => rfl
  | cons entry entries ih =>
    obtain ⟨t, first⟩ := entry
    by_cases h : t = target
    · simpa [h] using ih
    · simpa [h, List.lookup_cons, beq_eq_false_iff_ne.2 (Ne.symm h)] using ih

theorem lookup_reset_of_ne (tracker : DropTracker) {target other : String} (h : other ≠ target) :
    (tracker.reset target).firstSeen.lookup other = tracker.firstSeen.lookup other := by
  simp only [reset]
  induction tracker.firstSeen with
  | nil => rfl
  | cons entry entries ih =>
    obtain ⟨t, first⟩ := entry
    by_cases ht : t = target
    · subst ht
      simpa [List.lookup_cons, beq_eq_false_iff_ne.2 h] using ih
    · by_cases ho : other = t
      · simp [ht, ho]
      · simpa [ht, List.lookup_cons, beq_eq_false_iff_ne.2 ho] using ih

end DropTracker

end TrafficPolicy
