import TrafficPolicy.Proofs.Number.PowersOfTwo

/-!
# Whole numbers as floats

A natural number becomes a float of the same power of two, or of the next one if it is rounded up. A float that is not
less than one gives at least one when its fraction is dropped.
-/

namespace TrafficPolicy.Number

open Float.Model Float.Model.UnpackedFloat

variable {n : Nat} {j k : Int} {x : Float}

/-! ## From natural numbers -/

theorem toModel_toFloat (hn : n ≠ 0) (hsmall : n < 2 ^ 53) :
    n.toUInt64.toFloat.toModel = Float.Model.pack (UnpackedFloat.round .binary64 .positive n 0) := by
  have hword : n.toUInt64.toNat = n := Nat.mod_eq_of_lt (hsmall.trans (by decide))
  have hmodel : n.toUInt64.toFloat.toModel =
      Float.Model.pack (UnpackedFloat.normalize .binary64 (n.toUInt64.toNat : Int) 0 .positive) := rfl
  rw [hmodel, hword, normalize_pos (Nat.pos_of_ne_zero hn)]

theorem toModel_ofNat_small (hn : n ≠ 0) (hsmall : n < 2 ^ 53) :
    ∃ m h, n.toUInt64.toFloat.toModel = Float.Model.pack (.finite .positive m (n.log2 - 52) h) ∧ m.log2 = 52 := by
  have hlog : n.log2 ≤ 52 := Nat.lt_succ_iff.mp ((Nat.log2_lt hn).mpr hsmall)
  obtain ⟨m, h, hround, hm⟩ := round_exact (e := 0) .positive hn hlog (by omega)
  refine ⟨m, h, ?_, hm⟩
  rw [toModel_toFloat hn hsmall, hround]
  simp

/-- The factor is the power of ten with the exponent zero, which is kept by its bits. -/
theorem ofNat_eq_mul_one (hsmall : n < 2 ^ 53) :
    Float.ofNat n = n.toUInt64.toFloat * Float.ofBits 4607182418800017408 := by
  show Float.ofScientific n false 0 = _
  rw [Float.ofScientific, dif_pos ⟨hsmall, by decide⟩]
  rfl

/-- Numbers of up to 53 bits are floats. -/
theorem ofNat_small (hn : n ≠ 0) (hsmall : n < 2 ^ 53) :
    ∃ m h, (Float.ofNat n).toModel = Float.Model.pack (.finite .positive m (n.log2 - 52) h) ∧ m.log2 = 52 := by
  obtain ⟨m, h, hpack, hm⟩ := toModel_ofNat_small hn hsmall
  refine ⟨m, h, ?_, hm⟩
  have hlog : n.log2 ≤ 52 := Nat.lt_succ_iff.mp ((Nat.log2_lt hn).mpr hsmall)
  have hone : partsOf (Float.ofBits 4607182418800017408) = .finite .positive (2 ^ 52) (-52) (by decide) := rfl
  have hmul : (Float.ofNat n).toModel = Float.Model.pack (UnpackedFloat.mul .binary64
      (partsOf n.toUInt64.toFloat) (partsOf (Float.ofBits 4607182418800017408))) := by
    rw [ofNat_eq_mul_one hsmall]
    rfl
  have hexponent : (n.log2 : Int) - 52 + -52 + (52 : Nat) = n.log2 - 52 := by omega
  rw [hmul, hone, partsOf, hpack, unpack_pack_normal hm (by omega) (by omega)]
  simp only [UnpackedFloat.mul]
  exact congrArg Float.Model.pack
    ((roundWithAccuracy_exact .positive hm h (by omega)).trans (by simp only [hexponent]))

theorem toModel_ofNat_large (hlarge : 2 ^ 53 ≤ n) :
    (Float.ofNat n).toModel =
      Float.Model.pack (roundWithAccuracy .binary64 .positive (n * 2 ^ 53) (-53) .exact) := by
  have hn : n ≠ 0 := by
    rintro rfl
    simp at hlarge
  have hmodel : (Float.ofNat n).toModel =
      Float.Model.pack (UnpackedFloat.ofScientific .binary64 n 0) := by
    show (Float.ofScientific n false 0).toModel = _
    rw [Float.ofScientific, dif_neg fun h => absurd h.1 (by omega)]
    rfl
  have hscientific : UnpackedFloat.ofScientific .binary64 n 0 =
      roundWithAccuracy .binary64 .positive (n * 2 ^ 53) (-53) .exact := by
    have hrange : (2 : Int) ^ Format.binary64.exponentBits = 2048 := rfl
    have hbits : Format.binary64.mantissaBits = 53 := rfl
    rw [UnpackedFloat.ofScientific, dif_neg hn, hrange, if_neg (by omega), if_neg (by omega), if_pos (Int.le_refl 0)]
    simp only [UnpackedFloat.mul, hbits, Nat.shiftLeft_eq]
    rw [Int.toNat_zero, Nat.pow_zero, Nat.mul_one]
    rfl
  rw [hmodel, hscientific]

/-- Larger numbers are rounded. -/
theorem ofNat_large (hlarge : 2 ^ 53 ≤ n) :
    ∃ m e h, (Float.ofNat n).toModel = Float.Model.pack (.finite .positive m e h) ∧ m.log2 = 52 ∧
      (e + 52 = n.log2 ∨ e + 52 = n.log2 + 1) := by
  have hn : n ≠ 0 := by
    rintro rfl
    simp at hlarge
  have hlog := log2_mul_two_pow hn 53
  obtain ⟨m, e, h, hround, hm, he⟩ := roundWithAccuracy_normal .positive .exact
    (m := n * 2 ^ 53) (e := -53) (by omega) (by omega)
  exact ⟨m, e, h, by rw [toModel_ofNat_large hlarge, hround], hm, by omega⟩

theorem ofNat_normal (hn : n ≠ 0) :
    ∃ m e h, (Float.ofNat n).toModel = Float.Model.pack (.finite .positive m e h) ∧ m.log2 = 52 ∧
      (e + 52 = n.log2 ∨ e + 52 = n.log2 + 1) := by
  rcases Nat.lt_or_ge n (2 ^ 53) with hsmall | hlarge
  · obtain ⟨m, h, hpack, hm⟩ := ofNat_small hn hsmall
    exact ⟨m, _, h, hpack, hm, .inl (by omega)⟩
  · exact ofNat_large hlarge

theorem partsOf_ofNat_zero : partsOf (Float.ofNat 0) = .zero .positive := rfl

theorem atLeast_ofNat {j : Nat} (h : 2 ^ j ≤ n) : AtLeast j (partsOf (Float.ofNat n)) := by
  have hn : n ≠ 0 := by
    have := Nat.two_pow_pos j
    omega
  have hlog := (Nat.le_log2 hn).mpr h
  obtain ⟨m, e, h, hpack, hm, he⟩ := ofNat_normal hn
  rw [partsOf, hpack]
  exact atLeast_pack hm (by omega) (by omega)

theorem below_ofNat {k : Nat} (h : n < 2 ^ k) (hk : k < 1024) : Below (k + 1) (partsOf (Float.ofNat n)) := by
  by_cases hn : n = 0
  · rw [hn, partsOf_ofNat_zero]
    exact .zero _
  · have hlog := (Nat.log2_lt hn).mpr h
    obtain ⟨m, e, h, hpack, hm, he⟩ := ofNat_normal hn
    rw [partsOf, hpack]
    exact below_pack hm (by omega) (by omega) (by omega)

theorem nonneg_ofNat (n : Nat) : Nonneg (partsOf (Float.ofNat n)) := by
  by_cases hn : n = 0
  · rw [hn, partsOf_ofNat_zero]
    exact .zero _
  · obtain ⟨m, e, h, hpack, -, -⟩ := ofNat_normal hn
    rw [partsOf, hpack]
    exact nonneg_pack m e h

/-! ## Comparing with one -/

theorem partsOf_one : partsOf 1.0 = .finite .positive (2 ^ 52) (-52) (by decide) := rfl

theorem lt_iff_compare (x y : Float) : x < y ↔ (partsOf x).compare (partsOf y) = some .lt := by
  show decide (x.toModel < y.toModel) = true ↔ _
  rw [decide_eq_true_iff]
  show ((partsOf x).compare (partsOf y) == some .lt) = true ↔ _
  rw [beq_iff_eq]

/-- A positive finite float is less than one if its exponent is. -/
theorem compare_finite_one {m : Nat} {e : Int} {h : 0 < m} {u : UnpackedFloat} (hu : u = .finite .positive m e h) :
    u.compare (.finite .positive (2 ^ 52) (-52) (by decide)) = some .lt ↔ e < -52 ∨ e = -52 ∧ m < 2 ^ 52 := by
  subst hu
  have hcompare : UnpackedFloat.compare (.finite .positive m e h) (.finite .positive (2 ^ 52) (-52) (by decide)) =
      some ((compare e (-52)).then (compare m (2 ^ 52))) := rfl
  rw [hcompare, Option.some_inj, Ordering.then_eq_lt, compare_lt_iff_lt, compare_eq_iff_eq, compare_lt_iff_lt]

/-- What is at least one is not less than one. -/
theorem AtLeast.not_lt_one (hx : AtLeast 0 (partsOf x)) : ¬ x < 1.0 := by
  rw [lt_iff_compare, partsOf_one]
  generalize hu : partsOf x = u at hx ⊢
  cases hx with
  | infinity => nofun
  | @finite m e h hmag =>
    obtain ⟨hm, -, -⟩ := full_of_atLeast hu (by omega)
    have hlarge := ((Nat.log2_eq_iff h.ne').mp hm).1
    rw [compare_finite_one rfl]
    omega

/-- A number that is not less than one is at least one. -/
theorem atLeast_of_not_lt_one (hnumber : partsOf x ≠ .notANumber) (hx : ¬ x < 1.0) : AtLeast 0 (partsOf x) := by
  rw [lt_iff_compare, partsOf_one] at hx
  generalize hu : partsOf x = u at hnumber hx ⊢
  match u with
  | .notANumber => exact absurd rfl hnumber
  | .infinity .positive => exact .infinity
  | .infinity .negative => exact absurd rfl hx
  | .zero s => exact absurd rfl hx
  | .finite .negative m e h => exact absurd rfl hx
  | .finite .positive m e h =>
    rw [compare_finite_one rfl] at hx
    rcases canonical_of_unpack hu with ⟨hm, -, -⟩ | ⟨-, he⟩
    · exact .finite (by omega)
    · omega

/-! ## Dropping the fraction -/

theorem roundToInt_positive (m : Nat) (e : Int) :
    roundToInt .positive m e = (m * 2 ^ e.toNat / 2 ^ (-e).toNat : Nat) := by
  have hshift : (0 - (e - (e.toNat : Int))).toNat = (-e).toNat := by omega
  simp only [roundToInt, decreaseExponent_eq, shiftToExponent, Int.sub_zero, hshift, mantissa_shiftRight,
    mantissa_ofMantissaAndAccuracy, Sign.apply]

theorem one_le_roundToInt {m : Nat} {e : Int} (h : 0 < m) (hmag : 0 ≤ m.log2 + e) : 1 ≤ roundToInt .positive m e := by
  rw [roundToInt_positive]
  have hle : 2 ^ (-e).toNat ≤ m * 2 ^ e.toNat :=
    calc 2 ^ (-e).toNat ≤ 2 ^ m.log2 := Nat.pow_le_pow_right (by decide) (by omega)
      _ ≤ m := Nat.log2_self_le h.ne'
      _ ≤ m * 2 ^ e.toNat := Nat.le_mul_of_pos_right m (Nat.two_pow_pos _)
  exact_mod_cast Nat.div_pos hle (Nat.two_pow_pos _)

theorem one_le_ofNatClamp (h : 1 ≤ n) : 1 ≤ (UInt64.ofNatClamp n).toNat := by
  rcases Nat.lt_or_ge n UInt64.size with hlt | hge
  · rwa [UInt64.toNat_ofNatClamp_of_lt hlt]
  · rw [UInt64.toNat_ofNatClamp_of_le hge]
    decide

/-- What is at least one gives at least one. -/
theorem AtLeast.one_le_toUInt64 (hx : AtLeast 0 (partsOf x)) : 1 ≤ x.toUInt64.toNat := by
  show 1 ≤ (UInt64.ofNatClamp (UnpackedFloat.toInt 0 (UInt64.size - 1) (partsOf x)).toNat).toNat
  apply one_le_ofNatClamp
  generalize partsOf x = u at hx ⊢
  cases hx with
  | infinity => decide
  | @finite m e h hmag =>
    have hround := one_le_roundToInt h hmag
    show 1 ≤ (roundToInt .positive m e).toNat
    omega

theorem toUInt64_notANumber (hx : partsOf x = .notANumber) : x.toUInt64.toNat = 0 := by
  show (UInt64.ofNatClamp (UnpackedFloat.toInt 0 (UInt64.size - 1) (partsOf x)).toNat).toNat = 0
  rw [hx]
  rfl

theorem not_lt_of_notANumber (hx : partsOf x = .notANumber) (y : Float) : ¬ x < y := by
  rw [lt_iff_compare, hx]
  nofun

end TrafficPolicy.Number
