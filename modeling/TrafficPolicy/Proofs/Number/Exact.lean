import TrafficPolicy.Proofs.Number.Values

/-!
# Differences that are exact

The difference of two floats is not rounded if one is at most twice the other, or if a whole number is taken away from
a float that is not too large. A fraction is lost if it is added to a float that is too large for fractions.
-/

namespace TrafficPolicy.Number

variable {x y : ℚ} {m n : ℕ} {d e : ℤ}

/-- A difference is a multiple of the smaller of the two powers. -/
private theorem exists_sub (h : (n : ℚ) * 2 ^ d ≤ m * 2 ^ e) :
    ∃ k : ℕ, (m : ℚ) * 2 ^ e - n * 2 ^ d = k * 2 ^ min e d ∧ (e ≤ d → k ≤ m) := by
  have hm := natCast_mul_two_pow_toNat m (min_le_left e d)
  have hn := natCast_mul_two_pow_toNat n (min_le_right e d)
  have hle : n * 2 ^ (d - min e d).toNat ≤ m * 2 ^ (e - min e d).toNat := by
    rw [← hm, ← hn] at h
    exact_mod_cast le_of_mul_le_mul_right h (two_zpow_pos _)
  refine ⟨m * 2 ^ (e - min e d).toNat - n * 2 ^ (d - min e d).toNat, ?_, fun hed => ?_⟩
  · rw [Nat.cast_sub hle, sub_mul, hm, hn]
  · rw [min_eq_left hed, sub_self, Int.toNat_zero, pow_zero, mul_one]
    exact Nat.sub_le _ _

/-- Numbers that are not far apart have an exact difference. -/
theorem Representable.sub (hx : Representable x) (hy : Representable y) (hyx : y ≤ x) (hxy : x ≤ 2 * y) :
    Representable (x - y) := by
  obtain ⟨m, e, hm, he, rfl⟩ := hx
  obtain ⟨n, d, hn, hd, rfl⟩ := hy
  obtain ⟨k, hk, hkm⟩ := exists_sub hyx
  rw [hk]
  rcases le_or_gt e d with hed | hde
  · exact ⟨k, _, (hkm hed).trans_lt hm, le_min he hd, rfl⟩
  · -- The difference is at most the smaller number, which is as many units as its significand.
    rw [min_eq_right hde.le] at hk ⊢
    have hle : (k : ℚ) * 2 ^ d ≤ n * 2 ^ d := by linarith
    have hkn : k ≤ n := by exact_mod_cast le_of_mul_le_mul_right hle (two_zpow_pos d)
    exact ⟨k, d, hkn.trans_lt hn, hd, rfl⟩

/-- A whole number can be taken away from a float below `2 ^ 53`. -/
theorem Representable.sub_natCast (hx : Representable x) (hnx : n ≤ x) (hlarge : x ≤ 2 ^ 53) :
    Representable (x - n) := by
  obtain ⟨m, e, hm, he, rfl⟩ := hx
  obtain ⟨k, hk, hkm⟩ := exists_sub (d := 0) (by simpa using hnx)
  rw [zpow_zero, mul_one] at hk
  rw [hk]
  rcases le_or_gt e 0 with hneg | hpos
  · exact ⟨k, _, (hkm hneg).trans_lt hm, le_min he (by norm_num), rfl⟩
  · rw [min_eq_right hpos.le, zpow_zero, mul_one] at hk ⊢
    have hle : (k : ℚ) ≤ 2 ^ 53 := by
      have hn : (0 : ℚ) ≤ n := Nat.cast_nonneg n
      linarith
    exact representable_natCast (by exact_mod_cast hle)

/-- From `2 ^ 53` on floats are even. -/
theorem Representable.exists_even (hx : Representable x) (hlarge : 2 ^ 53 ≤ x) : ∃ k : ℕ, x = 2 * k := by
  obtain ⟨m, e, hm, -, rfl⟩ := hx
  have he : 0 < e := by
    by_contra hneg
    have hone : (2 : ℚ) ^ e ≤ 1 := zpow_le_one_of_nonpos₀ (by norm_num) (by omega)
    have hless : (m : ℚ) * 2 ^ e < 2 ^ 53 :=
      (mul_le_of_le_one_right (Nat.cast_nonneg m) hone).trans_lt (by exact_mod_cast hm)
    exact absurd hlarge (not_le.mpr hless)
  obtain ⟨k, hk⟩ := Int.eq_ofNat_of_zero_le (show 0 ≤ e - 1 by omega)
  refine ⟨m * 2 ^ k, ?_⟩
  obtain rfl : e = 1 + k := by omega
  rw [two_zpow_add, zpow_one, zpow_natCast]
  push_cast
  ring

/-- The whole part of a float is a float. -/
theorem Representable.floor (hx : Representable x) : Representable ⌊x⌋₊ := by
  rcases le_or_gt (2 ^ 53) x with hlarge | hsmall
  · obtain ⟨k, rfl⟩ := hx.exists_even hlarge
    have hwhole : (2 * k : ℚ) = (2 * k : ℕ) := by push_cast; rfl
    rw [hwhole, Nat.floor_natCast, ← hwhole]
    exact hx
  · exact representable_natCast (Nat.floor_le_of_le (by exact_mod_cast hsmall.le))

/-- The whole part of a float can be taken away from a float that is at most twice as large. -/
theorem Representable.sub_floor (hx : Representable x) (hy : Representable y) (hyx : y ≤ x) (hxy : x ≤ 2 * y) :
    Representable (x - ⌊y⌋₊) := by
  have hfloor : (⌊y⌋₊ : ℚ) ≤ y := Nat.floor_le hy.nonneg
  rcases le_or_gt x (2 ^ 53) with hsmall | hlarge
  · exact hx.sub_natCast (hfloor.trans hyx) hsmall
  · obtain ⟨k, rfl⟩ := hx.exists_even hlarge.le
    have hk : (k : ℚ) ≤ ⌊y⌋₊ := by exact_mod_cast Nat.le_floor (by linarith)
    exact hx.sub hy.floor (hfloor.trans hyx) (by linarith)

/-- From `2 ^ 53` on a fraction is lost. -/
theorem Representable.nearest_add {f : ℚ} (hx : Representable x) (hlarge : 2 ^ 53 ≤ x) (h0 : 0 ≤ f) (h1 : f < 1) :
    nearest (x + f) = x := by
  have hle : x ≤ nearest (x + f) := hx.le_nearest (by linarith)
  have hnear := hx.abs_sub_nearest_le (x := x + f) (by linarith)
  rw [add_sub_cancel_left, abs_of_nonneg h0] at hnear
  obtain ⟨k, hk⟩ := hx.exists_even hlarge
  obtain ⟨l, hl⟩ := (representable_nearest (x + f)).exists_even (hlarge.trans hle)
  have hless : nearest (x + f) < x + 2 := by linarith [(abs_le.mp hnear).1]
  rw [hl, hk] at hle hless
  have hlow : k ≤ l := by exact_mod_cast le_of_mul_le_mul_left hle two_pos
  have hhigh : l < k + 1 := by
    have : (l : ℚ) < k + 1 := by linarith
    exact_mod_cast this
  rw [hl, hk, show l = k by omega]

/-- Zero is not nearer. -/
theorem rounded_le_two_mul (hx : 0 ≤ x) : rounded x ≤ 2 * x := by
  have hnear := representable_zero.abs_sub_nearest_le hx
  rw [sub_zero, abs_of_nonneg hx] at hnear
  have hle : rounded x ≤ nearest x := min_le_left _ _
  linarith [(abs_le.mp hnear).1]

/-- In the normal range what is doubled is at most doubled by rounding. -/
theorem rounded_two_mul_le (hx : 2 ^ (-1022 : ℤ) ≤ x) : rounded (2 * x) ≤ 2 * rounded x := by
  have hdouble : nearest (2 * x) = 2 * nearest x := by
    have hpos := (two_zpow_pos (-1022)).trans_le hx
    have hscale := nearest_mul_two_zpow 1 hx (by rw [zpow_one]; linarith)
    rwa [zpow_one, mul_comm x, mul_comm (nearest x)] at hscale
  rw [rounded, rounded, hdouble]
  rcases min_choice (nearest x) tooLarge with h | h <;> rw [h]
  · exact min_le_left _ _
  · exact (min_le_right _ _).trans (by linarith [tooLarge_pos])

end TrafficPolicy.Number
