import TrafficPolicy.Proofs.Number.FixedPoint

/-!
# Millionths of what is read

What has been written as millionths and is read is rounded to a float. The float is as near to the millionths as the
one that was written, so that it is written as the same millionths. If a few more operations come in between, the
millionths are still the same, provided that they are not too many for the bits of a float.
-/

namespace TrafficPolicy.Number

variable {x y c d : ℚ} {n k l : ℕ}

theorem natCast_le_millionths (h : n ≤ x) : n * 10 ^ 6 ≤ millionths x := by
  apply le_halfEven
  push_cast
  exact mul_le_mul_of_nonneg_right h (by norm_num)

theorem millionths_le_natCast (h : x ≤ n) : millionths x ≤ n * 10 ^ 6 := by
  apply halfEven_le
  push_cast
  exact mul_le_mul_of_nonneg_right h (by norm_num)

private theorem abs_scale (x : ℚ) (n : ℕ) : |x * (10 ^ 6 : ℕ) - n| = |x - n / (10 ^ 6 : ℕ)| * (10 ^ 6 : ℕ) := by
  have hunit : (0 : ℚ) < (10 ^ 6 : ℕ) := by norm_num
  rw [← abs_of_pos hunit, ← abs_mul, sub_mul, abs_of_pos hunit, div_mul_cancel₀ _ hunit.ne']

/-- The float nearest to the millionths of a float is no farther from them than this float. -/
theorem millionths_nearest (hx : Representable x) :
    millionths (nearest (millionths x / (10 ^ 6 : ℕ))) = millionths x := by
  have hunit : (0 : ℚ) < (10 ^ 6 : ℕ) := by norm_num
  have hnonneg : (0 : ℚ) ≤ millionths x / (10 ^ 6 : ℕ) := by positivity
  have hnear : |nearest (millionths x / (10 ^ 6 : ℕ)) * (10 ^ 6 : ℕ) - millionths x| ≤
      |x * (10 ^ 6 : ℕ) - millionths x| := by
    have hnearest := hx.abs_sub_nearest_le hnonneg
    rw [abs_sub_comm, abs_sub_comm _ x] at hnearest
    rw [abs_scale, abs_scale]
    exact mul_le_mul_of_nonneg_right hnearest hunit.le
  have hagain : 0 ≤ nearest (millionths x / (10 ^ 6 : ℕ)) * (10 ^ 6 : ℕ) := mul_nonneg (nearest_nonneg _) hunit.le
  rcases halfEven_cases (mul_nonneg hx.nonneg hunit.le) with hclose | ⟨htie, heven⟩
  · exact halfEven_eq_of_abs_lt hagain (hnear.trans_lt hclose)
  · exact halfEven_eq_of_even hagain (hnear.trans htie.le) heven

/-! ## A few operations -/

/-- What one rounding may lose in proportion. -/
def roundoff : ℚ := 2 ^ (-53 : ℤ)

/-- A number is the same as another one but for some units in proportion. -/
def Within (k : ℕ) (x y : ℚ) : Prop := |y - x| ≤ x * (k * roundoff)

theorem roundoff_pos : 0 < roundoff := two_zpow_pos _

theorem natCast_mul_roundoff_le {m : ℕ} (h : k ≤ 2 ^ m) : k * roundoff ≤ 2 ^ (m - 53 : ℤ) := by
  calc k * roundoff ≤ 2 ^ m * roundoff := mul_le_mul_of_nonneg_right (by exact_mod_cast h) roundoff_pos.le
    _ = 2 ^ (m - 53 : ℤ) := by rw [roundoff, ← zpow_natCast, ← two_zpow_add, Int.sub_eq_add_neg]

theorem natCast_mul_roundoff_le_one (h : k ≤ 2 ^ 53) : k * roundoff ≤ 1 := by
  simpa using natCast_mul_roundoff_le h

theorem natCast_mul_roundoff_le_half (h : k ≤ 2 ^ 52) : k * roundoff ≤ 1 / 2 :=
  (natCast_mul_roundoff_le h).trans_eq (by norm_num)

theorem within_self (x : ℚ) : Within 0 x x := by
  simp [Within]

theorem Within.le (h : Within k x y) : y ≤ x + x * (k * roundoff) := by
  linarith [(abs_le.mp h).2]

theorem Within.half_le (h : Within k x y) (hx : 0 ≤ x) (hk : k ≤ 2 ^ 52) : x / 2 ≤ y := by
  have hlost := mul_le_mul_of_nonneg_left (natCast_mul_roundoff_le_half hk) hx
  linarith [(abs_le.mp h).1]

theorem Within.le_two_mul (h : Within k x y) (hx : 0 ≤ x) (hk : k ≤ 2 ^ 53) : y ≤ 2 * x := by
  have hlost := mul_le_mul_of_nonneg_left (natCast_mul_roundoff_le_one hk) hx
  linarith [h.le]

theorem Within.mul (h : Within k x y) (hc : Within l c d) (hx : 0 ≤ x) (hc0 : 0 ≤ c) (hkl : k * l ≤ 2 ^ 53) :
    Within (k + l + 1) (x * c) (y * d) := by
  have hboth : |y - x| * |d - c| ≤ x * c * roundoff := by
    have hone := natCast_mul_roundoff_le_one hkl
    push_cast at hone
    calc |y - x| * |d - c| ≤ x * (k * roundoff) * (c * (l * roundoff)) :=
          mul_le_mul h hc (abs_nonneg _) ((abs_nonneg _).trans h)
      _ = x * c * roundoff * (k * l * roundoff) := by ring
      _ ≤ x * c * roundoff := mul_le_of_le_one_right (mul_nonneg (mul_nonneg hx hc0) roundoff_pos.le) hone
  have hsplit : y * d - x * c = (y - x) * (d - c) + (y - x) * c + x * (d - c) := by ring
  rw [Within, hsplit]
  calc |(y - x) * (d - c) + (y - x) * c + x * (d - c)|
      ≤ |y - x| * |d - c| + |y - x| * c + x * |d - c| := by
        refine (abs_add_three _ _ _).trans_eq ?_
        rw [abs_mul, abs_mul, abs_mul, abs_of_nonneg hx, abs_of_nonneg hc0]
    _ ≤ x * c * roundoff + x * (k * roundoff) * c + x * (c * (l * roundoff)) :=
        add_le_add (add_le_add hboth (mul_le_mul_of_nonneg_right h hc0)) (mul_le_mul_of_nonneg_left hc hx)
    _ = x * c * ((k + l + 1 : ℕ) * roundoff) := by
        push_cast
        ring

/-- One more rounding in the range of the normal floats. -/
theorem Within.rounded (h : Within k x y) (hk : k ≤ 2 ^ 52) (hlow : 2 ^ (-1021 : ℤ) ≤ x) (hhigh : y ≤ tooLarge) :
    Within (k + 2) x (rounded y) := by
  have hx : 0 ≤ x := (two_zpow_pos _).le.trans hlow
  have hy := h.half_le hx hk
  have hnormal : 2 ^ (-1022 : ℤ) ≤ y := by
    have hdouble : (2 : ℚ) ^ (-1021 : ℤ) = 2 ^ (-1022 : ℤ) * 2 := by
      rw [show (-1021 : ℤ) = -1022 + 1 by norm_num, two_zpow_add, zpow_one]
    linarith
  have hnearest : Number.rounded y = nearest y :=
    rounded_eq_nearest (representable_tooLarge.nearest_le (by linarith) hhigh)
  have hlost : |nearest y - y| ≤ y * roundoff := by
    rw [abs_sub_comm]
    exact abs_sub_nearest_le_mul hnormal
  rw [Within, hnearest]
  calc |nearest y - x| ≤ |nearest y - y| + |y - x| := abs_sub_le _ _ _
    _ ≤ (x + x * (k * roundoff)) * roundoff + x * (k * roundoff) :=
        add_le_add (hlost.trans (mul_le_mul_of_nonneg_right h.le roundoff_pos.le)) h
    _ = x * roundoff * (k * roundoff) + x * ((k + 1 : ℕ) * roundoff) := by
        push_cast
        ring
    _ ≤ x * roundoff + x * ((k + 1 : ℕ) * roundoff) :=
        add_le_add_left (mul_le_of_le_one_right (mul_nonneg hx roundoff_pos.le)
          (natCast_mul_roundoff_le_one (hk.trans (by norm_num)))) _
    _ = x * ((k + 2 : ℕ) * roundoff) := by
        push_cast
        ring

/-- If there are not too many millionths, they are what is written. -/
theorem Within.millionths_eq (h : Within k (n / (10 ^ 6 : ℕ)) y) (hy : 0 ≤ y) (hn : n * k < 2 ^ 52) :
    millionths y = n := by
  refine halfEven_eq_of_abs_lt (mul_nonneg hy (by norm_num)) ?_
  rw [abs_scale]
  calc |y - n / (10 ^ 6 : ℕ)| * (10 ^ 6 : ℕ) ≤ n / (10 ^ 6 : ℕ) * (k * roundoff) * (10 ^ 6 : ℕ) :=
        mul_le_mul_of_nonneg_right h (by norm_num)
    _ = (n * k : ℕ) * roundoff := by
        push_cast
        ring
    _ < 2 ^ 52 * roundoff := mul_lt_mul_of_pos_right (by exact_mod_cast hn) roundoff_pos
    _ = 1 / 2 := by
        rw [roundoff]
        norm_num

/-! ## Amounts of a unit -/

/-- What some millionths are read as, in a unit whose size is rounded too. -/
def readAs (n : ℕ) (size : ℚ) : ℚ := rounded (rounded (n / (10 ^ 6 : ℕ)) * rounded size)

theorem le_readAs {size : ℕ} (hsize : size ≤ 2 ^ 53) (h : 10 ^ 6 ≤ n) : size ≤ readAs n size := by
  have hone : ((1 : ℕ) : ℚ) ≤ n / (10 ^ 6 : ℕ) := by
    rw [Nat.cast_one, one_le_div (by norm_num)]
    exact_mod_cast h
  have hamount := (representable_natCast (by norm_num)).le_rounded hone (natCast_lt_tooLarge (by norm_num)).le
  refine (representable_natCast hsize).le_rounded ?_ (natCast_lt_tooLarge hsize).le
  rw [rounded_natCast hsize]
  exact le_mul_of_one_le_left (Nat.cast_nonneg _) (by exact_mod_cast hamount)

theorem readAs_le {size limit : ℕ} (hsize : size ≤ 2 ^ 53) (hlimit : limit ≤ 2 ^ 53)
    (hproduct : limit * size ≤ 2 ^ 53) (h : n ≤ limit * 10 ^ 6) : readAs n size ≤ (limit * size : ℕ) := by
  have hmost : (n : ℚ) / (10 ^ 6 : ℕ) ≤ limit := by
    rw [div_le_iff₀ (by norm_num)]
    exact_mod_cast h
  have hamount := (representable_natCast hlimit).rounded_le (by positivity) hmost
  refine (representable_natCast hproduct).rounded_le ?_ ?_
  · exact mul_nonneg (rounded_nonneg _) (rounded_nonneg _)
  · rw [rounded_natCast hsize, Nat.cast_mul]
    exact mul_le_mul_of_nonneg_right hamount (Nat.cast_nonneg _)

section

variable {size : ℚ} (hlow : 1 / 1000 ≤ size) (hhigh : size ≤ 3600) (hn : 0 < n) (hmax : n ≤ 10 ^ 10)

private theorem small_le (h : 1 / 10 ^ 9 ≤ x) : 2 ^ (-1021 : ℤ) ≤ x := by
  calc (2 : ℚ) ^ (-1021 : ℤ) ≤ 2 ^ (-30 : ℤ) := zpow_le_zpow_right₀ (by norm_num) (by norm_num)
    _ ≤ 1 / 10 ^ 9 := by norm_num
    _ ≤ x := h

private theorem le_large (h : x ≤ 10 ^ 15) : x ≤ tooLarge := by
  calc x ≤ 10 ^ 15 := h
    _ ≤ 2 ^ (50 : ℤ) := by norm_num
    _ ≤ tooLarge := zpow_le_zpow_right₀ (by norm_num) (by norm_num)

include hlow hhigh hn hmax

theorem within_readAs : Within 7 (n / (10 ^ 6 : ℕ) * size) (readAs n size) := by
  have hone : (1 : ℚ) ≤ n := by exact_mod_cast hn
  have hten : (n : ℚ) ≤ 10 ^ 10 := by exact_mod_cast hmax
  have hleast : (1 : ℚ) / 10 ^ 6 ≤ n / (10 ^ 6 : ℕ) := by
    push_cast
    exact div_le_div_of_nonneg_right hone (by norm_num)
  have hmost : (n : ℚ) / (10 ^ 6 : ℕ) ≤ (10 ^ 4 : ℕ) := by
    rw [div_le_iff₀ (by norm_num)]
    exact hten.trans (by norm_num)
  have hamount := (within_self (n / (10 ^ 6 : ℕ))).rounded (by norm_num) (small_le (le_trans (by norm_num) hleast))
    (le_large (hmost.trans (by norm_num)))
  have hsize := (within_self size).rounded (by norm_num) (small_le (le_trans (by norm_num) hlow))
    (le_large (hhigh.trans (by norm_num)))
  refine (hamount.mul hsize (by positivity) (by linarith) (by norm_num)).rounded (by norm_num) (small_le ?_)
    (le_large ?_)
  · calc (1 : ℚ) / 10 ^ 9 = 1 / 10 ^ 6 * (1 / 1000) := by norm_num
      _ ≤ n / (10 ^ 6 : ℕ) * size := mul_le_mul hleast hlow (by norm_num) (by positivity)
  · have hamount := (representable_natCast (n := 10 ^ 4) (by norm_num)).rounded_le (by positivity) hmost
    have hsize := (representable_natCast (n := 3600) (by norm_num)).rounded_le (x := size) (by linarith)
      (by exact_mod_cast hhigh)
    calc rounded (n / (10 ^ 6 : ℕ)) * rounded size ≤ (10 ^ 4 : ℕ) * (3600 : ℕ) :=
          mul_le_mul hamount hsize (rounded_nonneg _) (by norm_num)
      _ ≤ 10 ^ 15 := by norm_num

theorem readAs_pos : 0 < readAs n size := by
  have hn' : (0 : ℚ) < n := by exact_mod_cast hn
  have hsize : 0 < size := by linarith
  have hpos : 0 < n / (10 ^ 6 : ℕ) * size / 2 := by positivity
  exact hpos.trans_le ((within_readAs hlow hhigh hn hmax).half_le (by positivity) (by norm_num))

/-- In the same unit the millionths are written again. -/
theorem millionths_readAs : millionths (rounded (readAs n size / size)) = n := by
  have hsize : 0 < size := by linarith
  have hone : (1 : ℚ) ≤ n := by exact_mod_cast hn
  have hten : (n : ℚ) ≤ 10 ^ 10 := by exact_mod_cast hmax
  have hwithin := (within_readAs hlow hhigh hn hmax).mul (within_self size⁻¹) (by positivity) (by positivity)
    (by norm_num)
  rw [mul_inv_cancel_right₀ hsize.ne', ← div_eq_mul_inv] at hwithin
  have hlarge := hwithin.le_two_mul (by positivity) (by norm_num)
  refine (hwithin.rounded (by norm_num) (small_le ?_) (le_large (hlarge.trans ?_))).millionths_eq (rounded_nonneg _)
    (by omega)
  · rw [le_div_iff₀ (by norm_num)]
    exact le_trans (by norm_num) hone
  · rw [mul_div_assoc', div_le_iff₀ (by norm_num)]
    push_cast
    linarith

/-- What is read does not reach a number of units that has not been written. -/
theorem readAs_lt {limit : ℕ} (hlimit : limit ≤ 10 ^ 4) (h : n < limit * 10 ^ 6) : readAs n size < limit * size := by
  have hsize : 0 < size := by linarith
  have hlimit' : (limit : ℚ) ≤ 10 ^ 4 := by exact_mod_cast hlimit
  have hless : (n : ℚ) / (10 ^ 6 : ℕ) ≤ limit - 1 / 10 ^ 6 := by
    have hnext : ((n + 1 : ℕ) : ℚ) ≤ (limit * 10 ^ 6 : ℕ) := by exact_mod_cast h
    rw [div_le_iff₀ (by norm_num)]
    push_cast at hnext ⊢
    linarith
  have hlost : (limit : ℚ) * (7 * roundoff) < 1 / 10 ^ 6 := by
    calc (limit : ℚ) * (7 * roundoff) ≤ 10 ^ 4 * (7 * roundoff) :=
          mul_le_mul_of_nonneg_right hlimit' (mul_nonneg (by norm_num) roundoff_pos.le)
      _ < 1 / 10 ^ 6 := by
          rw [roundoff]
          norm_num
  calc readAs n size ≤ n / (10 ^ 6 : ℕ) * size + n / (10 ^ 6 : ℕ) * size * ((7 : ℕ) * roundoff) :=
        (within_readAs hlow hhigh hn hmax).le
    _ = n / (10 ^ 6 : ℕ) * (1 + 7 * roundoff) * size := by
        push_cast
        ring
    _ ≤ (limit - 1 / 10 ^ 6) * (1 + 7 * roundoff) * size := by
        have := roundoff_pos
        gcongr
    _ < limit * size := by
        refine mul_lt_mul_of_pos_right ?_ hsize
        linarith [roundoff_pos]

end

end TrafficPolicy.Number
