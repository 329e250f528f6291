import TrafficPolicy.Grammar.Leaf
import TrafficPolicy.Proofs.Number.WholeNumbers
import TrafficPolicy.Quantity.Duration
import TrafficPolicy.Quantity.Rate

/-!
# How large durations and rates are

A time that has passed is a positive number of seconds. A rate that may be used is at least one byte in a second; it
is infinite if the amount in front of its unit is too large for the unit.
-/

namespace TrafficPolicy

open Number Float.Model Float.Model.UnpackedFloat

namespace Duration

variable {ns : Nat}

theorem partsOf_nanosPerSecond :
    partsOf 1000000000.0 = .finite .positive (10 ^ 9 * 2 ^ 23) (-23) (by decide) := rfl

theorem nonneg_secondsOf (ns : Nat) : Nonneg (partsOf (secondsOf ns)) :=
  (nonneg_ofNat _).add ((nonneg_ofNat _).div partsOf_nanosPerSecond)

theorem secondsOf_zero : partsOf (secondsOf 0) = .zero .positive := rfl

theorem atLeast_secondsOf {j : Nat} (h : 2 ^ j * nanosPerSecond ≤ ns) : AtLeast j (partsOf (secondsOf ns)) := by
  have hwhole : 2 ^ j ≤ ns / nanosPerSecond := (Nat.le_div_iff_mul_le (by decide)).mpr h
  exact (atLeast_ofNat hwhole).add ((nonneg_ofNat _).div partsOf_nanosPerSecond) (by omega)

/-- However short a time is, it is a positive number of seconds. -/
theorem secondsOf_pos (h : 0 < ns) : AtLeast (-30) (partsOf (secondsOf ns)) := by
  by_cases hwhole : nanosPerSecond ≤ ns
  · exact (atLeast_secondsOf (j := 0) (by omega)).mono (by decide)
  · have hdiv : ns / nanosPerSecond = 0 := Nat.div_eq_of_lt (by omega)
    have hmod : ns % nanosPerSecond = ns := Nat.mod_eq_of_lt (by omega)
    have hlog : Nat.log2 (10 ^ 9 * 2 ^ 23) = 52 := by decide
    have hfraction : AtLeast (0 - (-23 + 53)) (partsOf (Float.ofNat ns / 1000000000.0)) :=
      (atLeast_ofNat (j := 0) (by omega)).div partsOf_nanosPerSecond hlog (by decide) (by decide)
    rw [secondsOf, hdiv, hmod]
    exact atLeast_zero_add partsOf_ofNat_zero hfraction (by decide)

end Duration

namespace Rate

variable {raw : String} {rate : Float}

theorem isFinite_unitOf (text : List Char) : (unitOf text).2.isFinite = true := by
  unfold unitOf
  split
  · exact (rfl : kilo.isFinite = true)
  · exact (rfl : mega.isFinite = true)
  · exact (rfl : giga.isFinite = true)
  · exact (rfl : Float.isFinite 1.0 = true)

theorem isFinite_of_readAmount {literal : List Char} {amount : Float} (h : readAmount literal = .ok amount) :
    amount.isFinite = true := by
  unfold readAmount at h
  split at h
  · cases h
    rfl
  · split at h
    · cases h
    · dsimp only at h
      split at h
      · cases h
      · rename_i hfinite
        split at h
        · cases h
        · cases h
          simpa using hfinite

/-- A rate is the product of two finite floats. -/
theorem exists_factors (h : read raw = .ok rate) :
    ∃ amount factor : Float, rate = amount * factor ∧ amount.isFinite = true ∧ factor.isFinite = true := by
  unfold read at h
  dsimp only at h
  generalize Option.getD (Text.stripEnd? ['b'] _) _ = text at h
  split at h
  · cases h
  · cases hamount : readAmount (unitOf text).1 with
    | error => simp [hamount, bind, Except.bind] at h
    | ok amount =>
      rw [hamount] at h
      dsimp only [bind, Except.bind] at h
      split at h
      · cases h
      · cases h
        exact ⟨amount, (unitOf text).2, rfl, isFinite_of_readAmount hamount, isFinite_unitOf text⟩

/-- A rate that may be used is at least one. -/
theorem atLeast_of_read (h : read raw = .ok rate) (hmin : ¬rate < Leaf.minRate) : AtLeast 0 (partsOf rate) := by
  obtain ⟨amount, factor, rfl, hamount, hfactor⟩ := exists_factors h
  exact atLeast_of_not_lt_one (mul_ne_notANumber hamount hfactor) hmin

end Rate

end TrafficPolicy
