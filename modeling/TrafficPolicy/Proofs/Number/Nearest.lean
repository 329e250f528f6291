import TrafficPolicy.Proofs.Number.HalfEven

/-!
# The nearest float

The numbers that floats stand for have 53 bits and an exponent that is not too small. A number is rounded to the
nearest of them. The exponent is not bounded from above here; what is too large for a float is left to its users.
-/

namespace TrafficPolicy.Number

variable {x y : ℚ}

/-- The exponent of the last place of a number that is rounded. -/
def lastPlace (x : ℚ) : ℤ := max (Int.log 2 x - 52) (-1074)

/-- The nearest float, for a half the one with an even significand. -/
def nearest (x : ℚ) : ℚ := halfEven (x / 2 ^ lastPlace x) * 2 ^ lastPlace x

/-- A number has at most 53 bits, and its last place is not too small. -/
def Representable (y : ℚ) : Prop := ∃ (m : ℕ) (e : ℤ), m < 2 ^ 53 ∧ -1074 ≤ e ∧ y = m * 2 ^ e

theorem two_zpow_pos (e : ℤ) : (0 : ℚ) < 2 ^ e := zpow_pos two_pos e

theorem two_zpow_add (d e : ℤ) : (2 : ℚ) ^ (d + e) = 2 ^ d * 2 ^ e := zpow_add₀ two_ne_zero d e

theorem le_log {k : ℤ} (h : 2 ^ k ≤ x) : k ≤ Int.log 2 x :=
  (Int.zpow_le_iff_le_log (by decide) ((two_zpow_pos k).trans_le h)).mp (by exact_mod_cast h)

theorem log_eq {k : ℤ} (hlow : 2 ^ k ≤ x) (hhigh : x < 2 ^ (k + 1)) : Int.log 2 x = k := by
  have hpos : 0 < x := (two_zpow_pos k).trans_le hlow
  have hle := le_log hlow
  have hlt : Int.log 2 x < k + 1 := (Int.lt_zpow_iff_log_lt (by decide) hpos).mp (by exact_mod_cast hhigh)
  omega

theorem log_mul_two_zpow (k : ℤ) (hx : 0 < x) : Int.log 2 (x * 2 ^ k) = Int.log 2 x + k := by
  have hlow : (2 : ℚ) ^ Int.log 2 x ≤ x := by exact_mod_cast Int.zpow_log_le_self (b := 2) (by decide) hx
  have hhigh : x < (2 : ℚ) ^ (Int.log 2 x + 1) := by exact_mod_cast Int.lt_zpow_succ_log_self (b := 2) (by decide) x
  apply log_eq
  · rw [two_zpow_add]
    exact mul_le_mul_of_nonneg_right hlow (two_zpow_pos k).le
  · rw [add_right_comm, two_zpow_add]
    exact mul_lt_mul_of_pos_right hhigh (two_zpow_pos k)

/-! ## Numbers with 53 bits -/

theorem Representable.nonneg (hy : Representable y) : 0 ≤ y := by
  obtain ⟨m, e, -, -, rfl⟩ := hy
  have := two_zpow_pos e
  positivity

/-- A power of two more than 53 bits is no harm. -/
theorem representable_le {m : ℕ} {e : ℤ} (hm : m ≤ 2 ^ 53) (he : -1074 ≤ e) : Representable (m * 2 ^ e) := by
  rcases lt_or_eq_of_le hm with hlt | rfl
  · exact ⟨m, e, hlt, he, rfl⟩
  · refine ⟨2 ^ 52, e + 1, by norm_num, by omega, ?_⟩
    rw [two_zpow_add]
    norm_num
    ring

theorem representable_natCast {n : ℕ} (hn : n ≤ 2 ^ 53) : Representable n := by
  simpa using representable_le (e := 0) hn (by decide)

theorem representable_zero : Representable 0 := by
  simpa using representable_natCast (n := 0) (by decide)

theorem representable_two_zpow {e : ℤ} (he : -1074 ≤ e) : Representable (2 ^ e) := by
  simpa using representable_le (m := 1) (e := e) (by norm_num) he

theorem Representable.mul_two_zpow {k : ℤ} (hy : Representable y) (hk : 0 ≤ k) : Representable (y * 2 ^ k) := by
  obtain ⟨m, e, hm, he, rfl⟩ := hy
  exact ⟨m, e + k, hm, by omega, by rw [two_zpow_add, mul_assoc]⟩

/-! ## Beside the last place -/

theorem div_lastPlace_lt (x : ℚ) : x / 2 ^ lastPlace x < 2 ^ 53 := by
  have hlog := Int.lt_zpow_succ_log_self (b := 2) (by decide) x
  rw [div_lt_iff₀ (two_zpow_pos _), ← zpow_natCast, ← two_zpow_add]
  refine hlog.trans_le (zpow_le_zpow_right₀ (by norm_num) ?_)
  have := le_max_left (Int.log 2 x - 52) (-1074)
  unfold lastPlace
  push_cast
  omega

theorem two_zpow_le_of_lastPlace (hx : 0 < x) (h : -1074 < lastPlace x) : 2 ^ (52 + lastPlace x) ≤ x := by
  have hlog := Int.zpow_log_le_self (b := 2) (by decide) hx
  have hplace : 52 + lastPlace x = Int.log 2 x := by
    unfold lastPlace at h ⊢
    omega
  rw [hplace]
  exact_mod_cast hlog

/-- A float is a multiple of the last place of a number, or it is below all numbers with this last place. -/
theorem Representable.cases (hy : Representable y) (hx : 0 < x) :
    (∃ n : ℕ, y = n * 2 ^ lastPlace x) ∨
      y < (2 ^ 52 : ℕ) * 2 ^ lastPlace x ∧ (2 ^ 52 : ℕ) * 2 ^ lastPlace x ≤ x := by
  obtain ⟨m, e, hm, he, rfl⟩ := hy
  rcases le_or_gt (lastPlace x) e with hle | hlt
  · obtain ⟨d, hd⟩ := Int.le.dest hle
    refine .inl ⟨m * 2 ^ d, ?_⟩
    rw [← hd, two_zpow_add, zpow_natCast]
    push_cast
    ring
  · have hbinade := two_zpow_le_of_lastPlace hx (by omega)
    rw [two_zpow_add] at hbinade
    refine .inr ⟨?_, by exact_mod_cast hbinade⟩
    calc (m : ℚ) * 2 ^ e < 2 ^ 53 * 2 ^ e :=
          mul_lt_mul_of_pos_right (by exact_mod_cast hm) (two_zpow_pos e)
      _ = 2 ^ 52 * 2 ^ (1 + e) := by
          rw [two_zpow_add]
          norm_num
          ring
      _ ≤ (2 ^ 52 : ℕ) * 2 ^ lastPlace x := by
          push_cast
          exact mul_le_mul_of_nonneg_left (zpow_le_zpow_right₀ (by norm_num) (by omega)) (by positivity)

/-! ## The nearest one -/

@[simp] theorem nearest_zero : nearest 0 = 0 := by
  simp [nearest]

theorem nearest_nonneg (x : ℚ) : 0 ≤ nearest x :=
  mul_nonneg (Nat.cast_nonneg _) (two_zpow_pos _).le

theorem representable_nearest (x : ℚ) : Representable (nearest x) := by
  refine representable_le (halfEven_le ?_) (le_max_right _ _)
  exact_mod_cast (div_lastPlace_lt x).le

theorem Representable.le_nearest (hy : Representable y) (hyx : y ≤ x) : y ≤ nearest x := by
  have hplace := two_zpow_pos (lastPlace x)
  rcases (hy.nonneg.trans hyx).eq_or_lt with rfl | hx
  · rwa [nearest_zero]
  have hmultiple : ∀ n : ℕ, n * 2 ^ lastPlace x ≤ x → n * 2 ^ lastPlace x ≤ nearest x := fun n hn =>
    mul_le_mul_of_nonneg_right (by exact_mod_cast le_halfEven ((le_div_iff₀ hplace).mpr hn)) hplace.le
  rcases hy.cases hx with ⟨n, rfl⟩ | ⟨hlow, hbinade⟩
  · exact hmultiple n hyx
  · exact hlow.le.trans (hmultiple _ hbinade)

theorem Representable.nearest_le (hy : Representable y) (hx : 0 ≤ x) (hxy : x ≤ y) : nearest x ≤ y := by
  have hplace := two_zpow_pos (lastPlace x)
  rcases hx.eq_or_lt with rfl | hpos
  · rwa [nearest_zero]
  rcases hy.cases hpos with ⟨n, rfl⟩ | ⟨hlow, hbinade⟩
  · exact mul_le_mul_of_nonneg_right (by exact_mod_cast halfEven_le ((div_le_iff₀ hplace).mpr hxy)) hplace.le
  · exact absurd (hxy.trans_lt hlow) (not_lt.mpr hbinade)

theorem Representable.nearest_eq (hy : Representable y) : nearest y = y :=
  le_antisymm (hy.nearest_le hy.nonneg le_rfl) (hy.le_nearest le_rfl)

/-- At most half a unit of the last place is lost. -/
theorem abs_sub_nearest (x : ℚ) :
    |x - nearest x| = |x / 2 ^ lastPlace x - halfEven (x / 2 ^ lastPlace x)| * 2 ^ lastPlace x := by
  have hplace := two_zpow_pos (lastPlace x)
  have hsplit : x - nearest x = (x / 2 ^ lastPlace x - halfEven (x / 2 ^ lastPlace x)) * 2 ^ lastPlace x := by
    rw [sub_mul, div_mul_cancel₀ _ hplace.ne', nearest]
  rw [hsplit, abs_mul, abs_of_pos hplace]

/-- No float is nearer. -/
theorem Representable.abs_sub_nearest_le (hy : Representable y) (hx : 0 ≤ x) : |x - nearest x| ≤ |x - y| := by
  have hplace := two_zpow_pos (lastPlace x)
  rcases hx.eq_or_lt with rfl | hpos
  · simp
  have hmultiple : ∀ n : ℕ, |x - nearest x| ≤ |x - n * 2 ^ lastPlace x| := fun n => by
    have hsplit : x - n * 2 ^ lastPlace x = (x / 2 ^ lastPlace x - n) * 2 ^ lastPlace x := by
      rw [sub_mul, div_mul_cancel₀ _ hplace.ne']
    rw [abs_sub_nearest, hsplit, abs_mul, abs_of_pos hplace]
    exact mul_le_mul_of_nonneg_right (abs_sub_halfEven_le_abs_sub (div_nonneg hx hplace.le) n) hplace.le
  rcases hy.cases hpos with ⟨n, rfl⟩ | ⟨hlow, hbinade⟩
  · exact hmultiple n
  · refine (hmultiple (2 ^ 52)).trans ?_
    rw [abs_of_nonneg (sub_nonneg.mpr hbinade), abs_of_nonneg (sub_nonneg.mpr (hlow.le.trans hbinade))]
    exact sub_le_sub_left hlow.le x

theorem nearest_mono (hx : 0 ≤ x) (h : x ≤ y) : nearest x ≤ nearest y := by
  by_contra hlt
  have hcrossed := not_le.mp hlt
  have hlow : nearest y < x := by
    by_contra hle
    exact hlt ((representable_nearest y).nearest_le hx (not_lt.mp hle))
  have hhigh : y < nearest x := by
    by_contra hle
    exact hlt ((representable_nearest x).le_nearest (not_lt.mp hle))
  -- Each of the two is no nearer to what the other one is rounded to, so that they are the same.
  have hxy := (representable_nearest y).abs_sub_nearest_le hx
  have hyx := (representable_nearest x).abs_sub_nearest_le (hx.trans h)
  rw [abs_sub_comm, abs_of_nonneg (by linarith), abs_of_nonneg (by linarith)] at hxy
  rw [abs_of_nonneg (by linarith), abs_sub_comm y, abs_of_nonneg (by linarith)] at hyx
  obtain rfl : x = y := by linarith
  exact lt_irrefl _ hcrossed

/-! ## How much is lost -/

/-- In the normal range at most one part in `2 ^ 53` is lost. -/
theorem abs_sub_nearest_le_mul (hx : 2 ^ (-1022 : ℤ) ≤ x) : |x - nearest x| ≤ x * 2 ^ (-53 : ℤ) := by
  have hpos : 0 < x := (two_zpow_pos _).trans_le hx
  have hplace := two_zpow_pos (lastPlace x)
  have hlog := le_log hx
  have hunit : (2 : ℚ) ^ lastPlace x = 2 ^ Int.log 2 x * 2 ^ (-52 : ℤ) := by
    rw [← two_zpow_add, lastPlace, max_eq_left (by omega), Int.sub_eq_add_neg]
  have hle : (2 : ℚ) ^ Int.log 2 x ≤ x := by exact_mod_cast Int.zpow_log_le_self (b := 2) (by decide) hpos
  rw [abs_sub_nearest]
  calc |x / 2 ^ lastPlace x - halfEven (x / 2 ^ lastPlace x)| * 2 ^ lastPlace x
      ≤ 1 / 2 * 2 ^ lastPlace x :=
        mul_le_mul_of_nonneg_right (abs_sub_halfEven_le (div_nonneg hpos.le hplace.le)) hplace.le
    _ = 2 ^ Int.log 2 x * 2 ^ (-53 : ℤ) := by
        rw [hunit]
        norm_num
        ring
    _ ≤ x * 2 ^ (-53 : ℤ) := mul_le_mul_of_nonneg_right hle (two_zpow_pos _).le

/-- In the normal range a factor that is a power of two makes no difference. -/
theorem nearest_mul_two_zpow (k : ℤ) (hx : 2 ^ (-1022 : ℤ) ≤ x) (hxk : 2 ^ (-1022 : ℤ) ≤ x * 2 ^ k) :
    nearest (x * 2 ^ k) = nearest x * 2 ^ k := by
  have hlog := le_log hx
  have hlogk := le_log hxk
  have hshift := log_mul_two_zpow k ((two_zpow_pos _).trans_le hx)
  have hplace : lastPlace (x * 2 ^ k) = lastPlace x + k := by
    unfold lastPlace
    omega
  have hquotient : x * 2 ^ k / 2 ^ lastPlace (x * 2 ^ k) = x / 2 ^ lastPlace x := by
    rw [hplace, two_zpow_add, mul_div_mul_right _ _ (two_zpow_pos k).ne']
  rw [nearest, hquotient, hplace, two_zpow_add, ← mul_assoc]
  rfl

end TrafficPolicy.Number
