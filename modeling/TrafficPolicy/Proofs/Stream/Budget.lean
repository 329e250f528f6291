import TrafficPolicy.Proofs.Quantity.Elapsed
import TrafficPolicy.Proofs.Stream.Draining

/-!
# What a limit has not used

At a finite rate of at least one byte in a second, the worth of a time grows with the time. What has not been used of
it is a number that decides whether something may be sent, how much, and whether the window begins anew.
-/

namespace TrafficPolicy

namespace Stream

open Number Float.Model.UnpackedFloat

namespace Meter

variable {m : Meter} {r : ℚ} {now count d n : ℕ}

/-- The rate is a number of bytes in a second, and at least one. -/
structure Rated (m : Meter) (r : ℚ) : Prop where
  holds : Holds m.rate r
  one_le : 1 ≤ r
  lt_tooLarge : r < tooLarge

def worth (r : ℚ) (d : ℕ) : ℚ := rounded (Duration.secondsIn d * r)

theorem Rated.of_rate {other : Meter} (h : m.Rated r) (hrate : other.rate = m.rate) : other.Rated r :=
  ⟨hrate ▸ h.holds, h.one_le, h.lt_tooLarge⟩

theorem Rated.nonneg (h : m.Rated r) : 0 ≤ r := h.holds.zero_le

/-- A finite rate that may be used is such a number. -/
theorem exists_rated (hone : AtLeast 0 (partsOf m.rate)) (hfinite : m.rate.isFinite = true) : ∃ r, m.Rated r := by
  have h : Holds m.rate (value (partsOf m.rate)) := ⟨hone.nonneg, rfl⟩
  exact ⟨_, h, not_lt.mp fun hlt => hone.not_lt_one ((h.lt_iff holds_one).mpr hlt), h.isFinite_iff.mp hfinite⟩

theorem Rated.atLeast (h : m.Rated r) : AtLeast 0 (partsOf m.rate) := by
  refine atLeast_of_not_lt_one ?_ fun hlt => absurd h.one_le (not_le.mpr ((h.holds.lt_iff holds_one).mp hlt))
  intro hnumber
  have hnonneg := h.holds.nonneg
  rw [hnumber] at hnonneg
  cases hnonneg

theorem Rated.live (h : m.Rated r) (hstarted : m.windowStart ≤ now) : m.Live now :=
  ⟨h.atLeast, hstarted, .inl (h.holds.isFinite_iff.mpr h.lt_tooLarge)⟩

/-! ## The worth of a time -/

theorem Rated.holds_budget (h : m.Rated r) (d : ℕ) : Holds (m.budget d) (worth r d) :=
  (Duration.holds_secondsOf d).mul h.holds (.inr h.one_le) h.lt_tooLarge

theorem worth_nonneg (r : ℚ) (d : ℕ) : 0 ≤ worth r d := rounded_nonneg _

theorem worth_le (r : ℚ) (d : ℕ) : worth r d ≤ tooLarge := rounded_le _

theorem worth_mono (hr : 0 ≤ r) {later : ℕ} (h : d ≤ later) : worth r d ≤ worth r later :=
  rounded_mono (mul_nonneg (Duration.secondsIn_nonneg d) hr) (mul_le_mul_of_nonneg_right (Duration.secondsIn_mono h) hr)

theorem worth_zero (r : ℚ) : worth r 0 = 0 := by
  have hseconds : Duration.secondsIn 0 = 0 := by
    have h := Duration.secondsIn_mul 0
    rwa [Nat.zero_mul, rounded_natCast (Nat.zero_le _), Nat.cast_zero] at h
  rw [worth, hseconds, zero_mul, representable_zero.rounded_eq tooLarge_pos.le]

theorem secondsIn_idleSlack : Duration.secondsIn idleSlack = 1 := by
  have h := Duration.secondsIn_mul 1
  rwa [Nat.one_mul, rounded_natCast (by decide), Nat.cast_one] at h

theorem secondsIn_idleAge : Duration.secondsIn idleAge = 5 := by
  have h := Duration.secondsIn_mul 5
  rwa [rounded_natCast (by decide), Nat.cast_ofNat] at h

theorem Rated.worth_idleSlack (h : m.Rated r) : worth r idleSlack = r := by
  rw [worth, secondsIn_idleSlack, one_mul, h.holds.rounded_eq]

/-- What may be unused without a writer being idle is less than what a window may save up. -/
theorem Rated.lt_worth_idleAge (h : m.Rated r) : r < worth r idleAge := by
  have hone := h.one_le
  rw [worth, secondsIn_idleAge]
  rcases le_or_gt (2 * r) tooLarge with hsmall | hlarge
  · have hdouble : Representable (2 * r) := by
      have := h.holds.representable.mul_two_zpow (k := 1) (by decide)
      rwa [zpow_one, mul_comm] at this
    have hle := hdouble.le_rounded (x := 5 * r) (by linarith) hsmall
    linarith
  · rw [rounded_of_tooLarge_le (by linarith)]
    exact h.lt_tooLarge

theorem Rated.secondsIn_le_worth (h : m.Rated r) (d : ℕ) : Duration.secondsIn d ≤ worth r d := by
  have hseconds := Duration.holds_secondsOf d
  exact hseconds.representable.le_rounded (le_mul_of_one_le_right hseconds.zero_le h.one_le) hseconds.le_tooLarge

/-- One wait more at most doubles the worth of a time. -/
theorem Rated.worth_add_pause (h : m.Rated r) (hd : pause ≤ d) : worth r (d + pause) ≤ 2 * worth r d := by
  have hhalf : (1 / 2 : ℚ) ≤ Duration.secondsIn d := by
    have hseconds := Duration.secondsIn_mul_add_half (s := 0) (by decide)
    rw [Nat.zero_mul, Nat.zero_add, Nat.cast_zero, zero_add] at hseconds
    exact hseconds.symm.le.trans (Duration.secondsIn_mono hd)
  have hnormal : (2 : ℚ) ^ (-1022 : ℤ) ≤ Duration.secondsIn d * r := by
    have hone : (2 : ℚ) ^ (-1022 : ℤ) ≤ 2 ^ (-1 : ℤ) := zpow_le_zpow_right₀ (by norm_num) (by norm_num)
    calc (2 : ℚ) ^ (-1022 : ℤ) ≤ 1 / 2 := hone.trans_eq (by norm_num)
      _ ≤ Duration.secondsIn d := hhalf
      _ ≤ Duration.secondsIn d * r := le_mul_of_one_le_right (Duration.secondsIn_nonneg d) h.one_le
  have hdouble : Duration.secondsIn (d + pause) * r ≤ 2 * (Duration.secondsIn d * r) := by
    rw [← mul_assoc]
    exact mul_le_mul_of_nonneg_right (Duration.secondsIn_add_half hd) h.nonneg
  exact (rounded_mono (mul_nonneg (Duration.secondsIn_nonneg _) h.nonneg) hdouble).trans (rounded_two_mul_le hnormal)

/-- In proportion the worth of a time is what it should be but for a few roundings. -/
theorem Rated.within_worth (h : m.Rated r) (hpos : 0 < d) (hfew : worth r d < 2 ^ 53) :
    Within 6 (d / Duration.nanosPerSecond * r) (worth r d) := by
  have hwhole : d / Duration.nanosPerSecond < 2 ^ 53 := by
    by_contra hmany
    have hexact : rounded (2 ^ 53 : ℕ) = (2 ^ 53 : ℕ) := rounded_natCast le_rfl
    have hseconds := (rounded_mono (Nat.cast_nonneg _) (Nat.cast_le.mpr (not_lt.mp hmany))).trans
      ((Duration.rounded_le_secondsIn d).trans (h.secondsIn_le_worth d))
    rw [hexact] at hseconds
    exact absurd hfew (not_lt.mpr (by exact_mod_cast hseconds))
  have hhigh : Duration.secondsIn d * r ≤ tooLarge := by
    by_contra hmuch
    exact absurd hfew (not_lt.mpr (two_pow_lt_tooLarge.le.trans_eq (rounded_of_tooLarge_le (not_le.mp hmuch).le).symm))
  have hnonneg : (0 : ℚ) ≤ d / Duration.nanosPerSecond := div_nonneg (Nat.cast_nonneg _) (Nat.cast_nonneg _)
  have hlow : (2 : ℚ) ^ (-1021 : ℤ) ≤ d / Duration.nanosPerSecond * r :=
    (Duration.two_zpow_le_of_pos hpos).trans (le_mul_of_one_le_right hnonneg h.one_le)
  have hproduct := (Duration.within_secondsIn hpos hwhole).mul (within_self r) hnonneg h.nonneg (by norm_num)
  exact hproduct.rounded (by norm_num) hlow hhigh

/-- One wait more brings what half a second is worth, but for a fraction of a byte. -/
theorem Rated.worth_add_pause_le (h : m.Rated r) (hd : pause ≤ d) (hfew : worth r d < 2 ^ 44) :
    worth r (d + pause) ≤ worth r d + r / 2 + 1 / 4 := by
  have hdouble := h.worth_add_pause hd
  have hnonneg : 0 ≤ (d : ℚ) / Duration.nanosPerSecond * r :=
    mul_nonneg (div_nonneg (Nat.cast_nonneg _) (Nat.cast_nonneg _)) h.nonneg
  have hlater : ((d + pause : ℕ) : ℚ) / Duration.nanosPerSecond * r = d / Duration.nanosPerSecond * r + r / 2 := by
    have hhalf : ((pause : ℕ) : ℚ) / Duration.nanosPerSecond = 1 / 2 := by norm_num [pause, Duration.nanosPerSecond]
    rw [Nat.cast_add, add_div, hhalf]
    ring
  have hnow := h.within_worth ((by decide : 0 < pause).trans_le hd) (by linarith)
  have hnext := h.within_worth (d := d + pause) (by unfold pause; omega) (by linarith)
  rw [hlater] at hnext
  have hless := hnow.half_le hnonneg (by norm_num)
  have hmore := hnext.half_le (add_nonneg hnonneg (div_nonneg h.nonneg two_pos.le)) (by norm_num)
  have hunit : roundoff = 1 / 2 ^ 53 := by norm_num [roundoff]
  have hlow := (abs_le.mp hnow).1
  have hhigh := (abs_le.mp hnext).2
  rw [hunit] at hlow hhigh
  push_cast at hlow hhigh
  linarith

/-! ## What has not been used -/

/-- What has not been used of the window, as a number. -/
def left (r : ℚ) (m : Meter) (now : ℕ) : ℚ :=
  if worth r (now - m.windowStart) < tooLarge then rounded (worth r (now - m.windowStart) - rounded m.written)
  else tooLarge

theorem rounded_lt_tooLarge (h : n < 2 ^ 64) : rounded n < tooLarge := by
  have hpower : Representable (2 ^ (64 : ℤ)) := representable_two_zpow (by decide)
  refine (hpower.rounded_le (Nat.cast_nonneg n) ?_).trans_lt (zpow_lt_zpow_right₀ (by norm_num) (by norm_num))
  exact_mod_cast h.le

theorem Rated.holds_unused (h : m.Rated r) (hword : m.written < 2 ^ 64)
    (hwritten : rounded m.written ≤ worth r (now - m.windowStart)) : Holds (m.unused now) (left r m now) := by
  have hbudget := h.holds_budget (now - m.windowStart)
  unfold left
  split
  · rename_i hfinite
    exact hbudget.sub (holds_ofNat _) hfinite hwritten
  · rename_i hlarge
    rw [le_antisymm hbudget.le_tooLarge (not_lt.mp hlarge)] at hbudget
    exact hbudget.sub_of_tooLarge (holds_ofNat _) (rounded_lt_tooLarge hword)

theorem Rated.isIdle_iff (h : m.Rated r) (hword : m.written < 2 ^ 64)
    (hwritten : rounded m.written ≤ worth r (now - m.windowStart)) :
    m.isIdle now = true ↔ idleAge < now - m.windowStart ∧ r < left r m now := by
  have hslack := h.holds_budget idleSlack
  rw [h.worth_idleSlack] at hslack
  rw [isIdle, Bool.and_eq_true, decide_eq_true_iff, decide_eq_true_iff, gt_iff_lt,
    hslack.lt_iff (h.holds_unused hword hwritten)]

theorem Rated.allowance_eq (h : m.Rated r) (hword : m.written < 2 ^ 64)
    (hwritten : rounded m.written ≤ worth r (now - m.windowStart)) :
    m.allowance now = if left r m now < 1 then none else some (min ⌊left r m now⌋₊ (2 ^ 64 - 1)) := by
  have hunused := h.holds_unused hword hwritten
  unfold allowance
  dsimp only
  simp only [hunused.lt_iff holds_one, hunused.toNat_toUInt64]

/-- When a window begins nothing may be sent. -/
theorem Rated.allowance_starting (h : m.Rated r) (now : ℕ) : (starting now m.rate).allowance now = none := by
  have hrated : (starting now m.rate).Rated r := h.of_rate rfl
  have hwritten : rounded (starting now m.rate).written = 0 := by simp [starting, rounded, tooLarge_pos.le]
  have hworth : worth r (now - (starting now m.rate).windowStart) = 0 := by simp [starting, worth_zero]
  have hleft : left r (starting now m.rate) now = 0 := by
    rw [left, hworth, hwritten, if_pos tooLarge_pos, sub_zero, representable_zero.rounded_eq tooLarge_pos.le]
  rw [hrated.allowance_eq (by simp [starting]) (by rw [hwritten, hworth]), hleft, if_pos zero_lt_one]

end Meter

end Stream

end TrafficPolicy
