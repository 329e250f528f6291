import Mathlib
import TrafficPolicy.Number.Dyadic

/-!
# The nearest whole number

A number that is not negative is rounded to the nearest natural number, and a half to the even neighbour. A number
within half a unit of a whole number is rounded to it, but for a half beside an odd one.
-/

namespace TrafficPolicy.Number

variable {x y : ℚ} {n : ℕ}

/-- The nearest natural number, for a half the even one. -/
def halfEven (x : ℚ) : ℕ :=
  if x - ⌊x⌋₊ < 1 / 2 then ⌊x⌋₊
  else if 1 / 2 < x - ⌊x⌋₊ then ⌊x⌋₊ + 1
  else ⌊x⌋₊ + ⌊x⌋₊ % 2

theorem floor_le_halfEven (x : ℚ) : ⌊x⌋₊ ≤ halfEven x := by
  unfold halfEven
  split
  · exact Nat.le_refl _
  · split
    · exact Nat.le_succ _
    · exact Nat.le_add_right _ _

theorem halfEven_le_floor_add_one (x : ℚ) : halfEven x ≤ ⌊x⌋₊ + 1 := by
  have := Nat.mod_lt ⌊x⌋₊ (show 0 < 2 by decide)
  unfold halfEven
  split
  · omega
  · split <;> omega

/-- A whole number with a fraction. -/
theorem halfEven_add {f : ℚ} (n : ℕ) (h0 : 0 ≤ f) (h1 : f < 1) :
    halfEven (n + f) = if f < 1 / 2 then n else if 1 / 2 < f then n + 1 else n + n % 2 := by
  have hfloor : ⌊(n : ℚ) + f⌋₊ = n := by
    rw [Nat.floor_eq_iff (by positivity)]
    exact ⟨by linarith, by linarith⟩
  have hfraction : (n : ℚ) + f - n = f := by ring
  rw [halfEven, hfloor, hfraction]

@[simp] theorem halfEven_natCast (n : ℕ) : halfEven n = n := by
  have h := halfEven_add n (le_refl (0 : ℚ)) one_pos
  rwa [add_zero, if_pos (by norm_num)] at h

@[simp] theorem halfEven_zero : halfEven 0 = 0 := by
  exact_mod_cast halfEven_natCast 0

/-- What is rounded is at most half a unit away, and a half is rounded to an even number. -/
theorem halfEven_cases (hx : 0 ≤ x) :
    |x - halfEven x| < 1 / 2 ∨ |x - halfEven x| = 1 / 2 ∧ halfEven x % 2 = 0 := by
  have hlow := Nat.floor_le hx
  have hhigh := Nat.lt_floor_add_one x
  unfold halfEven
  split
  · rename_i hsmall
    left
    rwa [abs_of_nonneg (by linarith)]
  · rename_i hsmall
    split
    · rename_i hlarge
      left
      rw [Nat.cast_add, Nat.cast_one, abs_lt]
      constructor <;> linarith
    · rename_i hlarge
      have hhalf : x - ⌊x⌋₊ = 1 / 2 := le_antisymm (not_lt.mp hlarge) (not_lt.mp hsmall)
      right
      rcases Nat.mod_two_eq_zero_or_one ⌊x⌋₊ with heven | hodd
      · rw [heven, Nat.add_zero, hhalf]
        exact ⟨abs_of_pos (by norm_num), heven⟩
      · rw [hodd, Nat.cast_add, Nat.cast_one, show x - ((⌊x⌋₊ : ℚ) + 1) = -(1 / 2) by linarith, abs_neg]
        exact ⟨abs_of_pos (by norm_num), by omega⟩

theorem abs_sub_halfEven_le (hx : 0 ≤ x) : |x - halfEven x| ≤ 1 / 2 :=
  (halfEven_cases hx).elim le_of_lt fun h => h.1.le

private theorem lt_add_one {a b : ℕ} (ha : |x - a| ≤ 1 / 2) (hb : |x - b| ≤ 1 / 2)
    (h : |x - a| < 1 / 2 ∨ |x - b| < 1 / 2) : a < b + 1 := by
  rw [abs_le] at ha hb
  have hlt : (a : ℚ) < b + 1 := by
    rcases h with h | h <;> rw [abs_lt] at h <;> linarith [h.1, h.2, ha.1, ha.2, hb.1, hb.2]
  exact_mod_cast hlt

private theorem le_add_one {a b : ℕ} (ha : |x - a| ≤ 1 / 2) (hb : |x - b| ≤ 1 / 2) : a ≤ b + 1 := by
  rw [abs_le] at ha hb
  have hle : (a : ℚ) ≤ b + 1 := by linarith [ha.1, hb.2]
  exact_mod_cast hle

/-- No two whole numbers are within half a unit, unless a half lies between them. -/
theorem halfEven_eq_of_abs_lt (hx : 0 ≤ x) (h : |x - n| < 1 / 2) : halfEven x = n := by
  have hnear := abs_sub_halfEven_le hx
  have hlow := lt_add_one hnear h.le (.inr h)
  have hhigh := lt_add_one h.le hnear (.inl h)
  omega

theorem halfEven_eq_of_even (hx : 0 ≤ x) (h : |x - n| ≤ 1 / 2) (heven : n % 2 = 0) : halfEven x = n := by
  rcases halfEven_cases hx with hnear | ⟨htie, hother⟩
  · have hlow := lt_add_one hnear.le h (.inl hnear)
    have hhigh := lt_add_one h hnear.le (.inr hnear)
    omega
  · -- Both are even and at most a unit apart.
    have hlow := le_add_one htie.le h
    have hhigh := le_add_one h htie.le
    omega

/-- No whole number is nearer. -/
theorem abs_sub_halfEven_le_abs_sub (hx : 0 ≤ x) (n : ℕ) : |x - halfEven x| ≤ |x - n| := by
  by_contra h
  have hlt := not_le.mp h
  have hsame := halfEven_eq_of_abs_lt hx (hlt.trans_le (abs_sub_halfEven_le hx))
  rw [hsame] at hlt
  exact lt_irrefl _ hlt

theorem halfEven_mono (h : x ≤ y) : halfEven x ≤ halfEven y := by
  rcases lt_or_ge x 0 with hneg | hx
  · have hzero : halfEven x = 0 := by
      rw [halfEven, Nat.floor_of_nonpos hneg.le, if_pos (by push_cast; linarith)]
    omega
  · have hfloor := Nat.floor_mono h
    rcases Nat.lt_or_ge ⌊x⌋₊ ⌊y⌋₊ with hlt | hge
    · exact (halfEven_le_floor_add_one x).trans ((Nat.succ_le_of_lt hlt).trans (floor_le_halfEven y))
    · -- Both lie between the same whole numbers.
      have hsame : ⌊y⌋₊ = ⌊x⌋₊ := le_antisymm hge hfloor
      have := Nat.mod_lt ⌊x⌋₊ (show 0 < 2 by decide)
      simp only [halfEven, hsame]
      split_ifs <;> first | omega | (exfalso; linarith)

theorem le_halfEven (h : (n : ℚ) ≤ x) : n ≤ halfEven x := by
  simpa using halfEven_mono h

theorem halfEven_le (h : x ≤ n) : halfEven x ≤ n := by
  simpa using halfEven_mono h

theorem div_lt_half_iff {r d : ℕ} (hd : 0 < d) : (r : ℚ) / d < 1 / 2 ↔ 2 * r < d := by
  rw [div_lt_div_iff₀ (by exact_mod_cast hd) two_pos, one_mul, mul_comm]
  exact_mod_cast Iff.rfl

theorem half_lt_div_iff {r d : ℕ} (hd : 0 < d) : 1 / 2 < (r : ℚ) / d ↔ d < 2 * r := by
  rw [div_lt_div_iff₀ two_pos (by exact_mod_cast hd), one_mul, mul_comm (_ : ℚ) 2]
  exact_mod_cast Iff.rfl

theorem div_eq_div_add_mod (n : ℕ) {d : ℕ} (hd : 0 < d) : (n : ℚ) / d = (n / d : ℕ) + (n % d : ℕ) / d := by
  have hd' : (0 : ℚ) < d := by exact_mod_cast hd
  have hdiv : (n : ℚ) = d * (n / d : ℕ) + (n % d : ℕ) := by exact_mod_cast (Nat.div_add_mod n d).symm
  rw [hdiv]
  field_simp

/-- A quotient is rounded as a number. -/
theorem roundDiv_eq (n : ℕ) {d : ℕ} (hd : 0 < d) : roundDiv n d = halfEven (n / d) := by
  have hd' : (0 : ℚ) < d := by exact_mod_cast hd
  have hmod : ((n % d : ℕ) : ℚ) < d := by exact_mod_cast Nat.mod_lt n hd
  rw [div_eq_div_add_mod n hd, halfEven_add _ (by positivity) ((div_lt_one hd').mpr hmod)]
  simp only [roundDiv, div_lt_half_iff hd, half_lt_div_iff hd]

end TrafficPolicy.Number
