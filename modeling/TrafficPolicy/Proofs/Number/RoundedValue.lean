import TrafficPolicy.Proofs.Number.Nearest
import TrafficPolicy.Proofs.Number.PowersOfTwo

/-!
# Floats are rounded to the nearest

A mantissa that is kept with a round bit and a sticky bit says between which quarters a number lies. That is enough to
round it as the number itself. So what an operation gives is the exact result, rounded once; what is too large
becomes infinite, which counts as the least power of two that is too large.
-/

namespace TrafficPolicy.Number

open Float.Model Float.Model.UnpackedFloat

variable {x : ℚ} {m : ℕ} {e : ℤ} {s : Sign} {acc : Accuracy}

/-! ## Extended mantissas -/

/-- What the mantissa and the round bit say of a number. -/
def known (em : ExtendedMantissa) : ℚ := em.mantissa + if em.roundBit then 1 / 2 else 0

/-- A number of which an extended mantissa holds the first bits. -/
structure Extends (em : ExtendedMantissa) (x : ℚ) : Prop where
  low : known em ≤ x
  high : x < known em + 1 / 2
  sticky : em.stickyBit = true ↔ x ≠ known em

theorem extends_exact (m : ℕ) : Extends (.ofMantissaAndAccuracy m .exact) m := by
  constructor <;> simp [known, ExtendedMantissa.ofMantissaAndAccuracy]

theorem Extends.mantissa_le {em : ExtendedMantissa} (h : Extends em x) : em.mantissa ≤ x := by
  refine le_trans ?_ h.low
  unfold known
  split <;> simp

theorem Extends.lt_mantissa_add_one {em : ExtendedMantissa} (h : Extends em x) : x < em.mantissa + 1 := by
  have hhigh := h.high
  unfold known at hhigh
  split at hhigh <;> linarith

/-- The remainder of a division tells on which side of a half the quotient lies. -/
theorem extends_fraction (q : ℕ) {r d : ℕ} (h : r < d) :
    Extends (.ofMantissaAndAccuracy q (accuracyOfFraction r d)) (q + r / d) := by
  have hd : (0 : ℚ) < d := by exact_mod_cast (Nat.zero_le r).trans_lt h
  have hone : (r : ℚ) / d < 1 := (div_lt_one hd).mpr (by exact_mod_cast h)
  unfold accuracyOfFraction
  split
  · rename_i hr
    subst hr
    simpa using extends_exact q
  · rename_i hr
    have hpos : (0 : ℚ) < r / d := div_pos (by exact_mod_cast Nat.pos_of_ne_zero hr) hd
    have hd0 := (Nat.zero_le r).trans_lt h
    rcases lt_trichotomy (2 * r) d with hlt | heq | hgt
    · have hhalf := (div_lt_half_iff hd0).mpr hlt
      rw [compare_lt_iff_lt.mpr hlt]
      refine ⟨?_, ?_, ?_⟩ <;> simp only [known, ExtendedMantissa.ofMantissaAndAccuracy]
      · simpa using hpos.le
      · simpa using hhalf
      · simpa using hpos.ne'
    · have hhalf : (r : ℚ) / d = 1 / 2 := by
        refine le_antisymm (not_lt.mp ?_) (not_lt.mp ?_)
        · rw [half_lt_div_iff hd0]
          omega
        · rw [div_lt_half_iff hd0]
          omega
      rw [compare_eq_iff_eq.mpr heq, hhalf]
      constructor <;> simp [known, ExtendedMantissa.ofMantissaAndAccuracy]
    · have hhalf := (half_lt_div_iff hd0).mpr hgt
      rw [compare_gt_iff_gt.mpr hgt]
      refine ⟨?_, ?_, ?_⟩ <;> simp only [known, ExtendedMantissa.ofMantissaAndAccuracy, if_true]
      · simpa using hhalf.le
      · linarith
      · simpa using hhalf.ne'

theorem Extends.shiftRightOne {em : ExtendedMantissa} (h : Extends em x) : Extends em.shiftRightOne (x / 2) := by
  obtain ⟨m, r, s⟩ := em
  obtain ⟨hlow, hhigh, hsticky⟩ := h
  have hknown : known (ExtendedMantissa.mk m r s).shiftRightOne = m / 2 := by
    have hdiv : (m : ℚ) = 2 * (m / 2 : ℕ) + (m % 2 : ℕ) := by exact_mod_cast (Nat.div_add_mod m 2).symm
    rcases Nat.mod_two_eq_zero_or_one m with hmod | hmod
    · rw [hmod] at hdiv
      simp only [known, ExtendedMantissa.shiftRightOne, hmod]
      norm_num
      linarith
    · rw [hmod] at hdiv
      simp only [known, ExtendedMantissa.shiftRightOne, hmod]
      norm_num
      linarith
  simp only [known] at hlow hhigh hsticky
  constructor
  · rw [hknown]
    cases r <;> simp at hlow <;> linarith
  · rw [hknown]
    cases r <;> simp at hhigh <;> linarith
  · rw [hknown]
    cases r with
    | false =>
      simp only [ExtendedMantissa.shiftRightOne, Bool.false_or, hsticky]
      simp [div_left_inj']
    | true =>
      simp only [ExtendedMantissa.shiftRightOne, Bool.true_or, true_iff]
      simp at hlow
      intro heq
      linarith

theorem Extends.shiftRight {em : ExtendedMantissa} (h : Extends em x) (d : ℕ) : Extends (em >>> d) (x / 2 ^ d) := by
  induction d with
  | zero => simpa [HShiftRight.hShiftRight, Nat.repeat] using h
  | succ d ih =>
    have hstep : (em >>> (d + 1)) = (em >>> d).shiftRightOne := rfl
    rw [hstep, pow_succ, ← div_div]
    exact ih.shiftRightOne

/-- The bits that are kept are enough for rounding. -/
theorem Extends.roundedMantissa_eq {em : ExtendedMantissa} (h : Extends em x) : em.roundedMantissa = halfEven x := by
  have hsplit : x = em.mantissa + (x - em.mantissa) := by ring
  have hround := halfEven_add em.mantissa (sub_nonneg.mpr h.mantissa_le) (sub_lt_iff_lt_add'.mpr h.lt_mantissa_add_one)
  rw [← hsplit] at hround
  rw [hround]
  obtain ⟨m, r, s⟩ := em
  obtain ⟨hlow, hhigh, hsticky⟩ := h
  simp only [known] at hlow hhigh hsticky
  cases r with
  | false =>
    have hsmall : x - m < 1 / 2 := by simpa [sub_lt_iff_lt_add'] using hhigh
    rw [if_pos hsmall]
    cases s <;> rfl
  | true =>
    have hlarge : ¬x - m < 1 / 2 := by simpa [le_sub_iff_add_le'] using hlow
    rw [if_neg hlarge]
    cases s with
    | false =>
      have hsame : x = m + 1 / 2 := not_ne_iff.mp (mt hsticky.mpr (by simp))
      have htie : ¬1 / 2 < x - m := by
        rw [hsame, add_sub_cancel_left]
        exact lt_irrefl _
      rw [if_neg htie]
      rfl
    | true =>
      have hmore : 1 / 2 < x - m := by
        rw [lt_sub_iff_add_lt']
        exact lt_of_le_of_ne (by simpa using hlow) (by simpa using (hsticky.mp rfl).symm)
      rw [if_pos hmore]
      rfl

/-! ## Rounding to a float -/

/-- The exponent that is aimed at is that of the last place. -/
theorem targetExponent_eq_lastPlace (hx : Extends (.ofMantissaAndAccuracy m acc) x) (hpos : 0 < x)
    (hm : 0 < m ∨ e ≤ -1074) :
    Format.binary64.targetExponent (totalExponent m e) = lastPlace (x * 2 ^ e) := by
  have hlow := hx.mantissa_le
  have hhigh := hx.lt_mantissa_add_one
  rw [mantissa_ofMantissaAndAccuracy] at hlow hhigh
  have htarget : Format.binary64.targetExponent (totalExponent m e) = max (m.log2 + 1 + e - 53) (-1074) := rfl
  rw [htarget, lastPlace, log_mul_two_zpow e hpos]
  rcases Nat.eq_zero_or_pos m with rfl | hmpos
  · -- A number below one with the least exponent.
    have hlog : Int.log 2 x < 0 := by
      rw [← Int.lt_zpow_iff_log_lt (by decide) hpos]
      simpa using hhigh
    have hzero : Nat.log2 0 = 0 := rfl
    rw [hzero]
    omega
  · obtain ⟨hge, hlt⟩ := (Nat.log2_eq_iff hmpos.ne').mp rfl
    have hlog : Int.log 2 x = m.log2 := by
      apply log_eq
      · rw [zpow_natCast]
        exact le_trans (by exact_mod_cast hge) hlow
      · have hnext : (m : ℚ) + 1 ≤ 2 ^ (m.log2 + 1) := by exact_mod_cast hlt
        refine lt_of_lt_of_le hhigh (hnext.trans_eq ?_)
        rw [← zpow_natCast]
        rfl
    rw [hlog]
    omega

/-- What is rounded fits into a float, after one more shift if a bit has been gained. -/
theorem shiftToTargetExponent_le {k : ℕ} (hk : k ≤ 2 ^ 53) (hk0 : 0 < k) (he : -1074 ≤ e)
    (hfull : 2 ^ 52 ≤ k ∨ e = -1074) :
    ∃ k' e', shiftToTargetExponent .binary64 k e .exact = (⟨k', false, false⟩, e') ∧
      (k : ℚ) * 2 ^ e = k' * 2 ^ e' ∧ (k'.log2 = 52 ∧ -1074 ≤ e' ∨ k' < 2 ^ 52 ∧ e' = -1074) ∧ 0 < k' := by
  rcases Nat.lt_or_ge k (2 ^ 52) with hfew | hmany
  · have he' : e = -1074 := by omega
    have hlog := (Nat.log2_lt hk0.ne').mpr hfew
    have htarget : Format.binary64.targetExponent (totalExponent k e) = -1074 := by
      have hmax : Format.binary64.targetExponent (totalExponent k e) = max (k.log2 + 1 + e - 53) (-1074) := rfl
      rw [hmax]
      omega
    refine ⟨k, e, ?_, rfl, .inr ⟨hfew, he'⟩, hk0⟩
    rw [shiftToTargetExponent, htarget, he']
    rfl
  · rcases Nat.lt_or_ge k (2 ^ 53) with hlt | hge
    · have hlog : k.log2 = 52 := (Nat.log2_eq_iff hk0.ne').mpr ⟨hmany, hlt⟩
      have hshift := shiftToTargetExponent_exact (d := 0) hlog (e := e) (by omega)
      rw [Nat.pow_zero, Nat.mul_one, Nat.cast_zero, Int.add_zero] at hshift
      exact ⟨k, e, hshift, rfl, .inl ⟨hlog, he⟩, hk0⟩
    · obtain rfl : k = 2 ^ 52 * 2 ^ 1 := by omega
      refine ⟨2 ^ 52, e + 1, shiftToTargetExponent_exact Nat.log2_two_pow (by omega), ?_,
        .inl ⟨Nat.log2_two_pow, by omega⟩, by decide⟩
      rw [two_zpow_add]
      norm_num
      ring

/-- A number whose bits are cut off below the last place is rounded to the nearest. -/
theorem roundWithAccuracy_nearest (s : Sign) (hx : Extends (.ofMantissaAndAccuracy m acc) x) (hpos : 0 < x)
    (hm : 0 < m ∨ e ≤ -1074) (he : e ≤ lastPlace (x * 2 ^ e)) :
    roundWithAccuracy .binary64 s m e acc = .zero s ∧ nearest (x * 2 ^ e) = 0 ∨
      ∃ m' e' h, roundWithAccuracy .binary64 s m e acc = .finite s m' e' h ∧
        nearest (x * 2 ^ e) = m' * 2 ^ e' ∧ (m'.log2 = 52 ∧ -1074 ≤ e' ∨ m' < 2 ^ 52 ∧ e' = -1074) := by
  obtain ⟨d, hd⟩ := Int.le.dest he
  have hfirst : shiftToTargetExponent .binary64 m e acc =
      (ExtendedMantissa.ofMantissaAndAccuracy m acc >>> d, lastPlace (x * 2 ^ e)) := by
    have hshift : (lastPlace (x * 2 ^ e) - e).toNat = d := by omega
    rw [shiftToTargetExponent, targetExponent_eq_lastPlace hx hpos hm, shiftToExponent, hshift, hd]
  have hquotient : x / 2 ^ d = x * 2 ^ e / 2 ^ lastPlace (x * 2 ^ e) := by
    rw [← hd, two_zpow_add, mul_comm (2 ^ e : ℚ), mul_div_mul_right _ _ (two_zpow_pos e).ne', zpow_natCast]
  have hround : (ExtendedMantissa.ofMantissaAndAccuracy m acc >>> d).roundedMantissa =
      halfEven (x * 2 ^ e / 2 ^ lastPlace (x * 2 ^ e)) := by
    rw [(hx.shiftRight d).roundedMantissa_eq, hquotient]
  have hvalue : nearest (x * 2 ^ e) =
      (halfEven (x * 2 ^ e / 2 ^ lastPlace (x * 2 ^ e)) : ℕ) * 2 ^ lastPlace (x * 2 ^ e) := rfl
  have hplace : -1074 ≤ lastPlace (x * 2 ^ e) := le_max_right _ _
  have hle : halfEven (x * 2 ^ e / 2 ^ lastPlace (x * 2 ^ e)) ≤ 2 ^ 53 :=
    halfEven_le (by exact_mod_cast (div_lastPlace_lt _).le)
  have hfull : 2 ^ 52 ≤ halfEven (x * 2 ^ e / 2 ^ lastPlace (x * 2 ^ e)) ∨ lastPlace (x * 2 ^ e) = -1074 := by
    refine or_iff_not_imp_right.mpr fun hne => le_halfEven ?_
    have hbinade := two_zpow_le_of_lastPlace (mul_pos hpos (two_zpow_pos e)) (by omega)
    rw [le_div_iff₀ (two_zpow_pos _)]
    rw [two_zpow_add] at hbinade
    exact_mod_cast hbinade
  generalize lastPlace (x * 2 ^ e) = place at *
  generalize halfEven (x * 2 ^ e / 2 ^ place) = k at *
  rcases Nat.eq_zero_or_pos k with rfl | hk
  · left
    have hzero : (shiftToTargetExponent .binary64 0 place .exact).1.mantissa = 0 := by
      simp [shiftToTargetExponent, shiftToExponent, mantissa_shiftRight, mantissa_ofMantissaAndAccuracy]
    refine ⟨?_, by rw [hvalue, Nat.cast_zero, zero_mul]⟩
    simp only [roundWithAccuracy, hfirst, hround, dif_pos hzero]
  · right
    obtain ⟨k', e', hsecond, hsame, hcanonical, hk'⟩ := shiftToTargetExponent_le hle hk hplace hfull
    refine ⟨k', e', hk', ?_, hvalue.trans hsame, hcanonical⟩
    simp only [roundWithAccuracy, hfirst, hround, hsecond, dif_neg hk'.ne']

end TrafficPolicy.Number
