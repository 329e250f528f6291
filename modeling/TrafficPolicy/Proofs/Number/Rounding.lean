import Mathlib

/-!
# Rounding to a float

A positive number `m * 2 ^ e` lies between the powers of two with the exponents `m.log2 + e` and `m.log2 + e + 1`.
Rounding it to a float of full precision does not take it below the lower one, and at most up to the upper one.
-/

namespace TrafficPolicy.Number

open Float.Model Float.Model.UnpackedFloat

variable {m d : Nat} {e : Int} {s : Sign}

/-! ## Shifts -/

theorem log2_mul_two_pow (h : m ≠ 0) (d : Nat) : (m * 2 ^ d).log2 = m.log2 + d := by
  have hpos : m * 2 ^ d ≠ 0 := Nat.mul_ne_zero h (Nat.two_pow_pos d).ne'
  obtain ⟨hlow, hhigh⟩ := (Nat.log2_eq_iff h).mp rfl
  apply (Nat.log2_eq_iff hpos).mpr
  constructor
  · rw [Nat.pow_add]
    exact Nat.mul_le_mul_right _ hlow
  · rw [Nat.add_right_comm, Nat.pow_add]
    exact Nat.mul_lt_mul_of_pos_right hhigh (Nat.two_pow_pos d)

theorem log2_div_two_pow (h : m ≠ 0) (hd : d ≤ m.log2) : (m / 2 ^ d).log2 = m.log2 - d := by
  obtain ⟨hlow, hhigh⟩ := (Nat.log2_eq_iff h).mp rfl
  have hsplit : m.log2 = m.log2 - d + d := by omega
  have hge : 2 ^ (m.log2 - d) ≤ m / 2 ^ d := by
    rw [Nat.le_div_iff_mul_le (Nat.two_pow_pos d), ← Nat.pow_add, ← hsplit]
    exact hlow
  have hlt : m / 2 ^ d < 2 ^ (m.log2 - d + 1) := by
    rw [Nat.div_lt_iff_lt_mul (Nat.two_pow_pos d), ← Nat.pow_add]
    have hexponent : m.log2 - d + 1 + d = m.log2 + 1 := by omega
    rw [hexponent]
    exact hhigh
  have hpos := Nat.two_pow_pos (m.log2 - d)
  exact (Nat.log2_eq_iff (by omega)).mpr ⟨hge, hlt⟩

theorem mantissa_shiftRight (em : ExtendedMantissa) (d : Nat) : (em >>> d).mantissa = em.mantissa / 2 ^ d := by
  induction d with
  | zero => simp [HShiftRight.hShiftRight, Nat.repeat]
  | succ d ih =>
    have hstep : (em >>> (d + 1)).mantissa = (em >>> d).mantissa / 2 := rfl
    rw [hstep, ih, Nat.div_div_eq_div_mul, Nat.pow_succ]

theorem mantissa_ofMantissaAndAccuracy (m : Nat) (acc : Accuracy) :
    (ExtendedMantissa.ofMantissaAndAccuracy m acc).mantissa = m := by
  cases acc with
  | exact => rfl
  | inexact order => cases order <;> rfl

theorem roundedMantissa_bounds (em : ExtendedMantissa) :
    em.mantissa ≤ em.roundedMantissa ∧ em.roundedMantissa ≤ em.mantissa + 1 := by
  obtain ⟨mantissa, roundBit, stickyBit⟩ := em
  have := Nat.mod_lt mantissa (show 0 < 2 by decide)
  cases roundBit <;> cases stickyBit
  all_goals
    simp only [ExtendedMantissa.roundedMantissa, ExtendedMantissa.accuracy, Accuracy.roundToNearestEven]
    omega

/-- Bits that are zero are dropped without loss. -/
theorem shiftRight_exact (m d : Nat) :
    (ExtendedMantissa.mk (m * 2 ^ d) false false) >>> d = ⟨m, false, false⟩ := by
  induction d generalizing m with
  | zero => simp [HShiftRight.hShiftRight, Nat.repeat]
  | succ d ih =>
    have hstep : (ExtendedMantissa.mk (m * 2 ^ (d + 1)) false false) >>> (d + 1) =
        ((ExtendedMantissa.mk (m * 2 * 2 ^ d) false false) >>> d).shiftRightOne := by
      rw [Nat.pow_succ, Nat.mul_comm (2 ^ d), ← Nat.mul_assoc]
      rfl
    rw [hstep, ih]
    simp [ExtendedMantissa.shiftRightOne]

/-! ## Rounding in the normal range -/

theorem targetExponent_eq (h : -1022 ≤ m.log2 + e) :
    Format.binary64.targetExponent (totalExponent m e) = m.log2 + e - 52 := by
  simp only [Format.targetExponent, totalExponent, Format.mantissaBits, Format.minExponent]
  norm_num
  omega

/-- Zero bits behind a full mantissa are dropped. -/
theorem shiftToTargetExponent_exact (hm : m.log2 = 52) (he : -1074 ≤ e + d) :
    shiftToTargetExponent .binary64 (m * 2 ^ d) e .exact = (⟨m, false, false⟩, e + d) := by
  have hne : m ≠ 0 := by
    rintro rfl
    simp at hm
  have hlog : (m * 2 ^ d).log2 = 52 + d := by rw [log2_mul_two_pow hne, hm]
  have htarget : Format.binary64.targetExponent (totalExponent (m * 2 ^ d) e) = e + d := by
    rw [targetExponent_eq (by omega), hlog]
    omega
  have hshift : (e + d - e).toNat = d := by omega
  rw [shiftToTargetExponent, htarget, shiftToExponent, hshift]
  exact Prod.ext (shiftRight_exact m d) rfl

theorem roundWithAccuracy_exact (s : Sign) (hm : m.log2 = 52) (hpos : 0 < m) (he : -1074 ≤ e + d) :
    roundWithAccuracy .binary64 s (m * 2 ^ d) e .exact = .finite s m (e + d) hpos := by
  have hagain := shiftToTargetExponent_exact (d := 0) hm (e := e + d) (by omega)
  rw [Nat.pow_zero, Nat.mul_one, Nat.cast_zero, Int.add_zero] at hagain
  have hround : (ExtendedMantissa.mk m false false).roundedMantissa = m := rfl
  simp only [roundWithAccuracy, shiftToTargetExponent_exact hm he, hround, hagain, dif_neg hpos.ne']

/-- A number of enough bits is rounded to one of full precision. -/
theorem roundWithAccuracy_normal (s : Sign) (acc : Accuracy) (hm : 52 ≤ m.log2) (he : -1022 ≤ m.log2 + e) :
    ∃ m' e' h, roundWithAccuracy .binary64 s m e acc = .finite s m' e' h ∧ m'.log2 = 52 ∧
      (e' + 52 = m.log2 + e ∨ e' + 52 = m.log2 + e + 1) := by
  have hne : m ≠ 0 := by
    rintro rfl
    simp at hm
  let em : ExtendedMantissa := ExtendedMantissa.ofMantissaAndAccuracy m acc >>> (m.log2 - 52)
  let exponent : Int := m.log2 + e - 52
  have hfirst : shiftToTargetExponent .binary64 m e acc = (em, exponent) := by
    have hshift : (m.log2 + e - 52 - e).toNat = m.log2 - 52 := by omega
    have hexponent : e + (m.log2 - 52 : Nat) = m.log2 + e - 52 := by omega
    rw [shiftToTargetExponent, targetExponent_eq he, shiftToExponent, hshift, hexponent]
  have hmantissa : em.mantissa = m / 2 ^ (m.log2 - 52) := by
    rw [mantissa_shiftRight, mantissa_ofMantissaAndAccuracy]
  have hlog : em.mantissa.log2 = 52 := by
    rw [hmantissa, log2_div_two_pow hne (by omega)]
    omega
  have hpos : em.mantissa ≠ 0 := by
    intro h
    simp [h] at hlog
  obtain ⟨hlow, hhigh⟩ := (Nat.log2_eq_iff hpos).mp hlog
  obtain ⟨hge, hle⟩ := roundedMantissa_bounds em
  -- Rounding up may give a power of two, which has one bit too many.
  rcases Nat.lt_or_ge em.roundedMantissa (2 ^ 53) with hsmall | hlarge
  · have hrounded : em.roundedMantissa.log2 = 52 := (Nat.log2_eq_iff (by omega)).mpr ⟨by omega, hsmall⟩
    have hsecond := shiftToTargetExponent_exact (d := 0) hrounded (e := exponent) (by omega)
    rw [Nat.pow_zero, Nat.mul_one, Nat.cast_zero, Int.add_zero] at hsecond
    refine ⟨em.roundedMantissa, exponent, by omega, ?_, hrounded, .inl (by omega)⟩
    simp only [roundWithAccuracy, hfirst, hsecond, dif_neg (show em.roundedMantissa ≠ 0 by omega)]
  · have hrounded : em.roundedMantissa = 2 ^ 52 * 2 ^ 1 := by omega
    have hsecond := shiftToTargetExponent_exact (m := 2 ^ 52) (d := 1) Nat.log2_two_pow (e := exponent) (by omega)
    refine ⟨2 ^ 52, exponent + 1, by decide, ?_, Nat.log2_two_pow, .inr (by omega)⟩
    simp only [roundWithAccuracy, hfirst, hrounded, hsecond]
    rfl

theorem decreaseExponent_eq (m : Nat) (e target : Int) :
    decreaseExponent m e target = (m * 2 ^ (e - target).toNat, e - (e - target).toNat) := by
  rw [decreaseExponent, Nat.shiftLeft_eq]

/-- A positive number in the normal range is rounded to one of full precision. -/
theorem round_normal (s : Sign) (hm : m ≠ 0) (he : -1022 ≤ m.log2 + e) :
    ∃ m' e' h, UnpackedFloat.round .binary64 s m e = .finite s m' e' h ∧ m'.log2 = 52 ∧
      (e' + 52 = m.log2 + e ∨ e' + 52 = m.log2 + e + 1) := by
  have hlog := log2_mul_two_pow hm (e - (m.log2 + e - 52)).toNat
  obtain ⟨m', e', h, hround, hm', he'⟩ := roundWithAccuracy_normal s .exact
    (m := m * 2 ^ (e - (m.log2 + e - 52)).toNat) (e := e - (e - (m.log2 + e - 52)).toNat) (by omega) (by omega)
  refine ⟨m', e', h, ?_, hm', by omega⟩
  simp only [UnpackedFloat.round, targetExponent_eq he, decreaseExponent_eq, hround]

/-- A positive number of no more bits than a float has is a float. -/
theorem round_exact (s : Sign) (hm : m ≠ 0) (hlog : m.log2 ≤ 52) (he : -1022 ≤ m.log2 + e) :
    ∃ m' h, UnpackedFloat.round .binary64 s m e = .finite s m' (m.log2 + e - 52) h ∧ m'.log2 = 52 := by
  have hshift : (e - (m.log2 + e - 52)).toNat = 52 - m.log2 := by omega
  have hexponent : e - (52 - m.log2 : Nat) = m.log2 + e - 52 := by omega
  have hfull : (m * 2 ^ (52 - m.log2)).log2 = 52 := by
    rw [log2_mul_two_pow hm]
    omega
  have hpos : 0 < m * 2 ^ (52 - m.log2) := Nat.mul_pos (Nat.pos_of_ne_zero hm) (Nat.two_pow_pos _)
  have hround := roundWithAccuracy_exact (d := 0) s hfull hpos (e := m.log2 + e - 52) (by omega)
  rw [Nat.pow_zero, Nat.mul_one, Nat.cast_zero] at hround
  simp only [Int.add_zero] at hround
  refine ⟨m * 2 ^ (52 - m.log2), hpos, ?_, hfull⟩
  simp only [UnpackedFloat.round, targetExponent_eq he, decreaseExponent_eq, hshift, hexponent, hround]

/-- Whatever is rounded keeps its sign. -/
theorem roundWithAccuracy_cases (s : Sign) (m : Nat) (e : Int) (acc : Accuracy) :
    roundWithAccuracy .binary64 s m e acc = .zero s ∨
      ∃ m' e' h, roundWithAccuracy .binary64 s m e acc = .finite s m' e' h := by
  simp only [roundWithAccuracy]
  split
  · exact .inl rfl
  · rename_i h
    exact .inr ⟨_, _, Nat.pos_of_ne_zero h, rfl⟩

end TrafficPolicy.Number
