import TrafficPolicy.Proofs.Number.Exact
import TrafficPolicy.Proofs.Number.Millionths
import TrafficPolicy.Proofs.Quantity.Magnitudes

/-!
# The seconds of a time

A time is counted in nanoseconds. Its seconds as a float are the whole ones and the fraction, each rounded, and their
sum, rounded once more. Nevertheless the seconds grow with the time, half a second more at most doubles them, and in
proportion next to nothing is lost.
-/

namespace TrafficPolicy.Duration

open Number

variable {ns later s : ℕ}

/-- The fraction of a second that a time has beside its whole seconds. -/
def fractionIn (ns : ℕ) : ℚ := (ns % nanosPerSecond : ℕ) / nanosPerSecond

/-- The number that the seconds of a time are. -/
def secondsIn (ns : ℕ) : ℚ := rounded (rounded (ns / nanosPerSecond : ℕ) + rounded (fractionIn ns))

theorem fractionIn_nonneg (ns : ℕ) : 0 ≤ fractionIn ns := div_nonneg (Nat.cast_nonneg _) (Nat.cast_nonneg _)

/-- No fraction is rounded up to a second. -/
theorem rounded_fractionIn_lt_one (ns : ℕ) : rounded (fractionIn ns) < 1 := by
  have hbelow : Representable ((2 ^ 40 - 1 : ℕ) * 2 ^ (-40 : ℤ)) := ⟨2 ^ 40 - 1, -40, by norm_num, by norm_num, rfl⟩
  have hle : fractionIn ns ≤ (2 ^ 40 - 1 : ℕ) * 2 ^ (-40 : ℤ) := by
    have hmod : ns % nanosPerSecond ≤ 999999999 := Nat.le_of_lt_succ (Nat.mod_lt ns (by decide))
    calc fractionIn ns ≤ 999999999 / nanosPerSecond :=
          div_le_div_of_nonneg_right (by exact_mod_cast hmod) (Nat.cast_nonneg _)
      _ ≤ (2 ^ 40 - 1 : ℕ) * 2 ^ (-40 : ℤ) := by norm_num [nanosPerSecond]
  exact (hbelow.rounded_le (fractionIn_nonneg ns) hle).trans_lt (by norm_num)

theorem holds_secondsOf (ns : ℕ) : Holds (secondsOf ns) (secondsIn ns) := by
  have hbillion : Holds 1000000000.0 nanosPerSecond := holds_shifted (k := 23) (h := by decide) partsOf_nanosPerSecond
  have hmod : ns % nanosPerSecond ≤ 2 ^ 53 := (Nat.mod_lt ns (by decide)).le.trans (by decide)
  have hrest := holds_ofNat (ns % nanosPerSecond)
  rw [rounded_natCast hmod] at hrest
  exact (holds_ofNat _).add (hrest.div hbillion (natCast_lt_tooLarge hmod) (by norm_num [nanosPerSecond])
    (natCast_lt_tooLarge (by decide)))

theorem secondsIn_nonneg (ns : ℕ) : 0 ≤ secondsIn ns := rounded_nonneg _

/-! ## Between whole seconds -/

theorem secondsIn_mul (s : ℕ) : secondsIn (s * nanosPerSecond) = rounded s := by
  have hdiv : s * nanosPerSecond / nanosPerSecond = s := Nat.mul_div_cancel s (by decide)
  have hfraction : fractionIn (s * nanosPerSecond) = 0 := by simp [fractionIn]
  rw [secondsIn, hdiv, hfraction, representable_zero.rounded_eq tooLarge_pos.le, add_zero,
    (representable_rounded _).rounded_eq (rounded_le _)]

/-- Half seconds are exact. -/
theorem secondsIn_mul_add_half (h : s < 2 ^ 52) : secondsIn (s * nanosPerSecond + 500000000) = s + 1 / 2 := by
  have hdiv : (s * nanosPerSecond + 500000000) / nanosPerSecond = s := by
    unfold nanosPerSecond
    omega
  have hfraction : fractionIn (s * nanosPerSecond + 500000000) = 1 / 2 := by
    have hmod : (s * nanosPerSecond + 500000000) % nanosPerSecond = 500000000 := by
      unfold nanosPerSecond
      omega
    rw [fractionIn, hmod]
    norm_num [nanosPerSecond]
  have hexact : ∀ n : ℕ, n ≤ 2 ^ 53 → rounded (n * 2 ^ (-1 : ℤ)) = n * 2 ^ (-1 : ℤ) := fun n hn =>
    (representable_le hn (by norm_num)).rounded_eq ((mul_le_of_le_one_right (Nat.cast_nonneg n) (by norm_num)).trans
      (natCast_lt_tooLarge hn).le)
  have hhalf := hexact 1 (by norm_num)
  have hsum := hexact (2 * s + 1) (by omega)
  have hvalue : ((2 * s + 1 : ℕ) : ℚ) * 2 ^ (-1 : ℤ) = s + 1 / 2 := by
    push_cast
    ring
  norm_num at hhalf
  rw [hvalue] at hsum
  rw [secondsIn, hdiv, hfraction, rounded_natCast (by omega), hhalf, hsum]

theorem rounded_le_secondsIn (ns : ℕ) : rounded (ns / nanosPerSecond : ℕ) ≤ secondsIn ns :=
  (representable_rounded _).le_rounded (le_add_of_nonneg_right (rounded_nonneg _)) (rounded_le _)

theorem secondsIn_le_rounded (h : ns < s * nanosPerSecond) : secondsIn ns ≤ rounded s := by
  have hs : ns / nanosPerSecond < s := Nat.div_lt_of_lt_mul (by rwa [Nat.mul_comm])
  have hfraction := rounded_fractionIn_lt_one ns
  unfold secondsIn
  rcases Nat.lt_or_ge (ns / nanosPerSecond) (2 ^ 53) with hsmall | hlarge
  · rw [rounded_natCast hsmall.le]
    refine rounded_mono (add_nonneg (Nat.cast_nonneg _) (rounded_nonneg _)) ?_
    have hnext : ((ns / nanosPerSecond : ℕ) : ℚ) + 1 ≤ s := by exact_mod_cast hs
    linarith
  · -- So many seconds are even, and the fraction is lost.
    have hwhole : 2 ^ 53 ≤ rounded (ns / nanosPerSecond : ℕ) := by
      have hpower : Representable ((2 ^ 53 : ℕ) : ℚ) := representable_natCast le_rfl
      have h := hpower.le_rounded (x := (ns / nanosPerSecond : ℕ)) (by exact_mod_cast hlarge)
        (natCast_lt_tooLarge le_rfl).le
      exact_mod_cast h
    rw [rounded, (representable_rounded _).nearest_add hwhole (rounded_nonneg _) hfraction]
    exact (min_le_left _ _).trans (rounded_mono (Nat.cast_nonneg _) (by exact_mod_cast hs.le))

theorem secondsIn_mono (h : ns ≤ later) : secondsIn ns ≤ secondsIn later := by
  rcases (Nat.div_le_div_right (c := nanosPerSecond) h).eq_or_lt with heq | hlt
  · have hmod : ns % nanosPerSecond ≤ later % nanosPerSecond := by
      have hns := Nat.div_add_mod ns nanosPerSecond
      have hlater := Nat.div_add_mod later nanosPerSecond
      rw [heq] at hns
      omega
    have hfraction : fractionIn ns ≤ fractionIn later :=
      div_le_div_of_nonneg_right (by exact_mod_cast hmod) (Nat.cast_nonneg _)
    unfold secondsIn
    rw [heq]
    exact rounded_mono (add_nonneg (rounded_nonneg _) (rounded_nonneg _))
      (by linarith [rounded_mono (fractionIn_nonneg ns) hfraction])
  · exact (secondsIn_le_rounded ((Nat.div_lt_iff_lt_mul (by decide)).mp hlt)).trans (rounded_le_secondsIn later)

/-! ## Half a second more -/

/-- In the first second the seconds are the fraction. -/
private theorem secondsIn_add_half_of_lt (h : 500000000 ≤ ns) (hone : ns < nanosPerSecond) :
    secondsIn (ns + 500000000) ≤ 2 * secondsIn ns := by
  unfold nanosPerSecond at hone
  have hwhole : ns / nanosPerSecond = 0 := Nat.div_eq_of_lt hone
  have hnext : (ns + 500000000) / nanosPerSecond = 1 := by
    unfold nanosPerSecond
    omega
  have hfraction : fractionIn (ns + 500000000) = fractionIn ns - 1 / 2 := by
    have hmod : ns % nanosPerSecond = ns := Nat.mod_eq_of_lt hone
    have hmore : (ns + 500000000) % nanosPerSecond = ns - 500000000 := by
      unfold nanosPerSecond
      omega
    rw [fractionIn, fractionIn, hmod, hmore, Nat.cast_sub h]
    norm_num [nanosPerSecond]
    ring
  have hsum : 1 + rounded (fractionIn (ns + 500000000)) ≤ 2 * fractionIn ns := by
    linarith [rounded_le_two_mul (fractionIn_nonneg (ns + 500000000))]
  have hnormal : (2 : ℚ) ^ (-1022 : ℤ) ≤ fractionIn ns := by
    have hhalf : (2 : ℚ) ^ (-1022 : ℤ) ≤ 2 ^ (-1 : ℤ) := zpow_le_zpow_right₀ (by norm_num) (by norm_num)
    have hrest := fractionIn_nonneg (ns + 500000000)
    refine hhalf.trans ?_
    norm_num
    linarith
  rw [secondsIn, secondsIn, hnext, hwhole, Nat.cast_one, Nat.cast_zero, representable_zero.rounded_eq tooLarge_pos.le,
    zero_add, (representable_rounded _).rounded_eq (rounded_le _), holds_one.rounded_eq]
  exact (rounded_mono (add_nonneg zero_le_one (rounded_nonneg _)) hsum).trans (rounded_two_mul_le hnormal)

/-- Half a second more at most doubles the seconds. -/
theorem secondsIn_add_half (h : 500000000 ≤ ns) : secondsIn (ns + 500000000) ≤ 2 * secondsIn ns := by
  rcases Nat.lt_or_ge ns nanosPerSecond with hfirst | hlater
  · exact secondsIn_add_half_of_lt h hfirst
  have hone : 1 ≤ ns / nanosPerSecond := (Nat.le_div_iff_mul_le (by decide)).mpr (by omega)
  by_cases hdouble : ns + 500000000 < 2 * (ns / nanosPerSecond) * nanosPerSecond
  · have hnormal : (2 : ℚ) ^ (-1022 : ℤ) ≤ (ns / nanosPerSecond : ℕ) :=
      (zpow_le_one_of_nonpos₀ (by norm_num) (by norm_num)).trans (by exact_mod_cast hone)
    calc secondsIn (ns + 500000000) ≤ rounded (2 * (ns / nanosPerSecond) : ℕ) := secondsIn_le_rounded hdouble
      _ ≤ 2 * rounded (ns / nanosPerSecond : ℕ) := by
          rw [Nat.cast_mul, Nat.cast_ofNat]
          exact rounded_two_mul_le hnormal
      _ ≤ 2 * secondsIn ns := mul_le_mul_of_nonneg_left (rounded_le_secondsIn ns) two_pos.le
  · -- One second and a half are left.
    have hlow : secondsIn (1 * nanosPerSecond + 500000000) ≤ secondsIn ns :=
      secondsIn_mono (by unfold nanosPerSecond at *; omega)
    rw [secondsIn_mul_add_half (by decide)] at hlow
    have hhigh : secondsIn (ns + 500000000) ≤ rounded (3 : ℕ) :=
      secondsIn_le_rounded (by unfold nanosPerSecond at *; omega)
    rw [rounded_natCast (by decide)] at hhigh
    push_cast at hlow hhigh
    linarith

/-! ## How much is lost -/

/-- Even a nanosecond is in the range of the normal floats. -/
theorem two_zpow_le_of_pos (hpos : 0 < ns) : (2 : ℚ) ^ (-1021 : ℤ) ≤ ns / nanosPerSecond := by
  calc (2 : ℚ) ^ (-1021 : ℤ) ≤ 2 ^ (-30 : ℤ) := zpow_le_zpow_right₀ (by norm_num) (by norm_num)
    _ ≤ 1 / nanosPerSecond := by norm_num [nanosPerSecond]
    _ ≤ ns / nanosPerSecond := div_le_div_of_nonneg_right (by exact_mod_cast hpos) (Nat.cast_nonneg _)

/-- The fraction and the sum are rounded. -/
theorem within_secondsIn (hpos : 0 < ns) (hfew : ns / nanosPerSecond < 2 ^ 53) :
    Within 3 (ns / nanosPerSecond) (secondsIn ns) := by
  have hsplit : (ns : ℚ) / nanosPerSecond = (ns / nanosPerSecond : ℕ) + fractionIn ns :=
    div_eq_div_add_mod ns (by decide)
  have hlost : |rounded (fractionIn ns) - fractionIn ns| ≤ fractionIn ns * roundoff := by
    rcases Nat.eq_zero_or_pos (ns % nanosPerSecond) with hwhole | hrest
    · have hzero : fractionIn ns = 0 := by rw [fractionIn, hwhole, Nat.cast_zero, zero_div]
      simp [hzero, representable_zero.rounded_eq tooLarge_pos.le]
    · have hlow : (2 : ℚ) ^ (-1022 : ℤ) ≤ fractionIn ns :=
        (zpow_le_zpow_right₀ (by norm_num) (by norm_num : (-1022 : ℤ) ≤ -1021)).trans (two_zpow_le_of_pos hrest)
      rw [rounded_eq_nearest_of_lt ((rounded_fractionIn_lt_one ns).trans_le holds_one.le_tooLarge), abs_sub_comm]
      exact abs_sub_nearest_le_mul hlow
  have hsum : Within 1 (ns / nanosPerSecond) ((ns / nanosPerSecond : ℕ) + rounded (fractionIn ns)) := by
    rw [Within, hsplit, add_sub_add_left_eq_sub, Nat.cast_one, one_mul]
    exact hlost.trans (mul_le_mul_of_nonneg_right (le_add_of_nonneg_left (Nat.cast_nonneg _)) roundoff_pos.le)
  have hhigh : ((ns / nanosPerSecond : ℕ) : ℚ) + rounded (fractionIn ns) ≤ tooLarge := by
    refine le_trans ?_ (natCast_lt_tooLarge (Nat.succ_le_of_lt hfew)).le
    rw [Nat.cast_succ]
    exact add_le_add_right (rounded_fractionIn_lt_one ns).le _
  rw [secondsIn, rounded_natCast hfew.le]
  exact hsum.rounded (by norm_num) (two_zpow_le_of_pos hpos) hhigh

end TrafficPolicy.Duration
