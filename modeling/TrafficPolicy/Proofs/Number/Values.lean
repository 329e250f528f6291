import TrafficPolicy.Proofs.Number.RoundedValue
import TrafficPolicy.Proofs.Number.WholeNumbers

/-!
# What floats stand for

A float that is not below zero holds a number; infinity holds the least power of two that is too large for a float, so
that floats are ordered like the numbers that they hold. Each operation gives the exact result for the numbers,
rounded once.
-/

namespace TrafficPolicy.Number

open Float.Model Float.Model.UnpackedFloat

/-- The least power of two that is too large for a float. -/
def tooLarge : ℚ := 2 ^ (1024 : ℤ)

/-- The number that the parts of a float stand for if they are not below zero. -/
def value : UnpackedFloat → ℚ
  | .infinity _ => tooLarge
  | .notANumber => 0
  | .zero _ => 0
  | .finite _ m e _ => m * 2 ^ e

def rounded (x : ℚ) : ℚ := min (nearest x) tooLarge

/-- A float is not below zero and stands for a number. -/
structure Holds (a : Float) (x : ℚ) : Prop where
  nonneg : Nonneg (partsOf a)
  value_eq : value (partsOf a) = x

variable {a b : Float} {x y : ℚ} {m n : ℕ} {e d : ℤ}

/-! ## Numbers that floats hold -/

theorem tooLarge_pos : 0 < tooLarge := two_zpow_pos _

theorem representable_tooLarge : Representable tooLarge := representable_two_zpow (by decide)

theorem rounded_le (x : ℚ) : rounded x ≤ tooLarge := min_le_right _ _

theorem rounded_eq_nearest (h : nearest x ≤ tooLarge) : rounded x = nearest x := min_eq_left h

theorem rounded_eq_nearest_of_lt (h : rounded x < tooLarge) : rounded x = nearest x :=
  rounded_eq_nearest ((min_lt_iff.mp h).resolve_right (lt_irrefl _)).le

theorem rounded_mono (hx : 0 ≤ x) (h : x ≤ y) : rounded x ≤ rounded y :=
  min_le_min_right _ (nearest_mono hx h)

theorem rounded_nonneg (x : ℚ) : 0 ≤ rounded x := le_min (nearest_nonneg x) tooLarge_pos.le

theorem rounded_of_tooLarge_le (h : tooLarge ≤ x) : rounded x = tooLarge :=
  min_eq_right (representable_tooLarge.le_nearest h)

theorem Representable.rounded_eq (hx : Representable x) (h : x ≤ tooLarge) : rounded x = x := by
  rw [rounded, hx.nearest_eq, min_eq_left h]

theorem Representable.le_rounded (hy : Representable y) (hyx : y ≤ x) (hlarge : y ≤ tooLarge) : y ≤ rounded x :=
  le_min (hy.le_nearest hyx) hlarge

theorem Representable.rounded_le (hy : Representable y) (hx : 0 ≤ x) (hxy : x ≤ y) : rounded x ≤ y :=
  (min_le_left _ _).trans (hy.nearest_le hx hxy)

theorem representable_rounded (x : ℚ) : Representable (rounded x) := by
  rcases min_choice (nearest x) tooLarge with h | h <;> rw [rounded, h]
  · exact representable_nearest x
  · exact representable_tooLarge

/-- The parts of a float that is rounded as far as its exponent allows. -/
def Canonical (m : ℕ) (e : ℤ) : Prop := m.log2 = 52 ∧ -1074 ≤ e ∧ e ≤ 971 ∨ m < 2 ^ 52 ∧ e = -1074

theorem Canonical.lt (h : Canonical m e) : m < 2 ^ 53 ∧ -1074 ≤ e ∧ e ≤ 971 := by
  rcases h with ⟨hm, hlow, hhigh⟩ | ⟨hm, he⟩
  · have hm0 : m ≠ 0 := by
      rintro rfl
      simp at hm
    exact ⟨((Nat.log2_eq_iff hm0).mp hm).2, hlow, hhigh⟩
  · exact ⟨by omega, by omega, by omega⟩

theorem Canonical.le (h : Canonical m e) (he : -1074 < e) : 2 ^ 52 ≤ m := by
  rcases h with ⟨hm, -, -⟩ | ⟨-, hleast⟩
  · have hm0 : m ≠ 0 := by
      rintro rfl
      simp at hm
    exact ((Nat.log2_eq_iff hm0).mp hm).1
  · omega

/-- Floats are ordered by their exponents first. -/
theorem Canonical.value_lt (h : Canonical m e) (h' : Canonical n d) (hlt : e < d) : (m : ℚ) * 2 ^ e < n * 2 ^ d := by
  have hn := h'.le (h.lt.2.1.trans_lt hlt)
  calc (m : ℚ) * 2 ^ e < 2 ^ 53 * 2 ^ e :=
        mul_lt_mul_of_pos_right (by exact_mod_cast h.lt.1) (two_zpow_pos e)
    _ = 2 ^ 52 * 2 ^ (1 + e) := by
        rw [two_zpow_add]
        norm_num
        ring
    _ ≤ 2 ^ 52 * 2 ^ d :=
        mul_le_mul_of_nonneg_left (zpow_le_zpow_right₀ (by norm_num) (by omega)) (by positivity)
    _ ≤ n * 2 ^ d := mul_le_mul_of_nonneg_right (by exact_mod_cast hn) (two_zpow_pos d).le

theorem Canonical.lt_tooLarge (h : Canonical m e) : (m : ℚ) * 2 ^ e < tooLarge := by
  obtain ⟨hm, -, he⟩ := h.lt
  calc (m : ℚ) * 2 ^ e < 2 ^ 53 * 2 ^ e :=
        mul_lt_mul_of_pos_right (by exact_mod_cast hm) (two_zpow_pos e)
    _ = 2 ^ (53 + e) := by
        rw [two_zpow_add]
        norm_num
    _ ≤ tooLarge := zpow_le_zpow_right₀ (by norm_num) (by omega)

/-- What a float that is not below zero may be. -/
theorem Holds.cases (h : Holds a x) :
    partsOf a = .infinity .positive ∧ x = tooLarge ∨ (∃ s, partsOf a = .zero s) ∧ x = 0 ∨
      ∃ m e hm, partsOf a = .finite .positive m e hm ∧ Canonical m e ∧ x = m * 2 ^ e := by
  obtain ⟨hnonneg, rfl⟩ := h
  generalize hu : partsOf a = u at hnonneg ⊢
  cases hnonneg with
  | infinity => exact .inl ⟨rfl, rfl⟩
  | zero s => exact .inr (.inl ⟨⟨s, rfl⟩, rfl⟩)
  | finite => exact .inr (.inr ⟨_, _, _, rfl, canonical_of_unpack hu, rfl⟩)

theorem Holds.representable (h : Holds a x) : Representable x := by
  rcases h.cases with ⟨-, rfl⟩ | ⟨-, rfl⟩ | ⟨m, e, -, -, hcanonical, rfl⟩
  · exact representable_tooLarge
  · exact representable_zero
  · exact ⟨m, e, hcanonical.lt.1, hcanonical.lt.2.1, rfl⟩

theorem Holds.zero_le (h : Holds a x) : 0 ≤ x := h.representable.nonneg

theorem Holds.le_tooLarge (h : Holds a x) : x ≤ tooLarge := by
  rcases h.cases with ⟨-, rfl⟩ | ⟨-, rfl⟩ | ⟨m, e, -, -, hcanonical, rfl⟩
  · exact le_rfl
  · exact tooLarge_pos.le
  · exact hcanonical.lt_tooLarge.le

def greatest : ℚ := (2 ^ 53 - 1 : ℕ) * 2 ^ (971 : ℤ)

theorem greatest_lt_tooLarge : greatest < tooLarge := by
  have hsplit : tooLarge = 2 ^ 53 * 2 ^ (971 : ℤ) := by
    rw [tooLarge, show (1024 : ℤ) = (53 : ℕ) + 971 by norm_num, two_zpow_add, zpow_natCast]
  rw [hsplit]
  exact mul_lt_mul_of_pos_right (by norm_num) (two_zpow_pos _)

theorem Holds.le_greatest (h : Holds a x) (hx : x < tooLarge) : x ≤ greatest := by
  rcases h.cases with ⟨-, rfl⟩ | ⟨-, rfl⟩ | ⟨m, e, -, -, hcanonical, rfl⟩
  · exact absurd hx (lt_irrefl _)
  · exact mul_nonneg (Nat.cast_nonneg _) (two_zpow_pos _).le
  · obtain ⟨hm, -, he⟩ := hcanonical.lt
    exact mul_le_mul (by exact_mod_cast Nat.le_sub_one_of_lt hm) (zpow_le_zpow_right₀ (by norm_num) he)
      (two_zpow_pos e).le (Nat.cast_nonneg _)

theorem Holds.isFinite_iff (h : Holds a x) : a.isFinite = true ↔ x < tooLarge := by
  rw [isFinite_eq]
  rcases h.cases with ⟨hu, rfl⟩ | ⟨⟨s, hu⟩, rfl⟩ | ⟨m, e, hm, hu, hcanonical, rfl⟩ <;> rw [hu]
  · exact ⟨nofun, fun hlt => absurd hlt (lt_irrefl _)⟩
  · exact ⟨fun _ => tooLarge_pos, fun _ => rfl⟩
  · exact ⟨fun _ => hcanonical.lt_tooLarge, fun _ => rfl⟩

theorem Holds.rounded_eq (h : Holds a x) : rounded x = x := h.representable.rounded_eq h.le_tooLarge

/-! ## The order -/

theorem compare_parts (ha : Holds a x) (hb : Holds b y) : (partsOf a).compare (partsOf b) = some (compare x y) := by
  rcases ha.cases with ⟨hu, rfl⟩ | ⟨⟨s, hu⟩, rfl⟩ | ⟨m, e, hm, hu, hc, rfl⟩ <;>
    rcases hb.cases with ⟨hv, rfl⟩ | ⟨⟨t, hv⟩, rfl⟩ | ⟨n, d, hn, hv, hc', rfl⟩ <;> rw [hu, hv]
  · rw [compare_eq_iff_eq.mpr rfl]
    rfl
  · rw [compare_gt_iff_gt.mpr tooLarge_pos]
    rfl
  · rw [compare_gt_iff_gt.mpr hc'.lt_tooLarge]
    rfl
  · rw [compare_lt_iff_lt.mpr tooLarge_pos]
    rfl
  · rw [compare_eq_iff_eq.mpr rfl]
    rfl
  · rw [compare_lt_iff_lt.mpr (mul_pos (by exact_mod_cast hn) (two_zpow_pos d))]
    rfl
  · rw [compare_lt_iff_lt.mpr hc.lt_tooLarge]
    rfl
  · rw [compare_gt_iff_gt.mpr (mul_pos (by exact_mod_cast hm) (two_zpow_pos e))]
    rfl
  · have hcompare : UnpackedFloat.compare (.finite .positive m e hm) (.finite .positive n d hn) =
        some ((compare e d).then (compare m n)) := rfl
    rw [hcompare]
    rcases lt_trichotomy e d with hlt | rfl | hgt
    · rw [compare_lt_iff_lt.mpr hlt, compare_lt_iff_lt.mpr (hc.value_lt hc' hlt)]
      rfl
    · rw [compare_eq_iff_eq.mpr rfl, Ordering.eq_then]
      have hmul : compare ((m : ℚ) * 2 ^ e) (n * 2 ^ e) = compare m n := by
        have hpos := two_zpow_pos e
        rcases lt_trichotomy m n with h | rfl | h
        · rw [compare_lt_iff_lt.mpr h, compare_lt_iff_lt]
          exact mul_lt_mul_of_pos_right (by exact_mod_cast h) hpos
        · rw [compare_eq_iff_eq.mpr rfl, compare_eq_iff_eq.mpr rfl]
        · rw [compare_gt_iff_gt.mpr h, compare_gt_iff_gt]
          exact mul_lt_mul_of_pos_right (by exact_mod_cast h) hpos
      rw [hmul]
    · rw [compare_gt_iff_gt.mpr hgt, compare_gt_iff_gt.mpr (hc'.value_lt hc hgt)]
      rfl

theorem Holds.lt_iff (ha : Holds a x) (hb : Holds b y) : a < b ↔ x < y := by
  rw [lt_iff_compare, compare_parts ha hb, Option.some_inj, compare_lt_iff_lt]

theorem le_iff_compare (a b : Float) : a ≤ b ↔ ((partsOf a).compare (partsOf b)).any (·.isLE) = true := by
  show decide (a.toModel ≤ b.toModel) = true ↔ _
  rw [decide_eq_true_iff]
  rfl

theorem Holds.le_iff (ha : Holds a x) (hb : Holds b y) : a ≤ b ↔ x ≤ y := by
  rw [le_iff_compare, compare_parts ha hb, Option.any_some, ← not_lt, ← compare_gt_iff_gt]
  cases compare x y <;> decide

/-- A finite float that is not below zero holds a number. -/
theorem exists_holds (hfinite : a.isFinite = true) (h : ¬a < 0.0) : ∃ x, Holds a x ∧ x < tooLarge := by
  have hnonneg : Nonneg (partsOf a) := by
    rw [isFinite_eq] at hfinite
    rw [lt_iff_compare] at h
    generalize partsOf a = u at hfinite h
    cases u with
    | notANumber => cases hfinite
    | infinity s => cases hfinite
    | zero s => exact .zero s
    | finite s m e hm =>
      cases s with
      | positive => exact .finite
      | negative => exact absurd rfl h
  exact ⟨_, ⟨hnonneg, rfl⟩, (Holds.isFinite_iff ⟨hnonneg, rfl⟩).mp hfinite⟩

/-! ## What is packed -/

theorem holds_zero {s : Sign} (h : partsOf a = .zero s) : Holds a 0 :=
  ⟨h ▸ .zero s, by rw [h]; rfl⟩

theorem holds_infinity (h : partsOf a = .infinity .positive) : Holds a tooLarge :=
  ⟨h ▸ .infinity, by rw [h]; rfl⟩

theorem holds_finite {hm : 0 < m} (h : partsOf a = .finite .positive m e hm) : Holds a (m * 2 ^ e) :=
  ⟨h ▸ .finite, by rw [h]; rfl⟩

theorem le_tooLarge_of_exponent (hm : 2 ^ 52 ≤ m) (he : 971 < e) : tooLarge ≤ m * 2 ^ e := by
  calc tooLarge = 2 ^ 52 * 2 ^ (972 : ℤ) := by
        rw [tooLarge, show (1024 : ℤ) = 52 + 972 by norm_num, two_zpow_add]
        norm_num
    _ ≤ 2 ^ 52 * 2 ^ e :=
        mul_le_mul_of_nonneg_left (zpow_le_zpow_right₀ (by norm_num) (by omega)) (by positivity)
    _ ≤ m * 2 ^ e := mul_le_mul_of_nonneg_right (by exact_mod_cast hm) (two_zpow_pos e).le

/-- What is rounded is packed as it is, or as infinity. -/
theorem holds_of_finite {hm : 0 < m} (hcanonical : m.log2 = 52 ∧ -1074 ≤ e ∨ m < 2 ^ 52 ∧ e = -1074)
    (ha : partsOf a = (Float.Model.pack (.finite .positive m e hm)).unpack) : Holds a (min (m * 2 ^ e) tooLarge) := by
  rcases hcanonical with ⟨hlog, hlow⟩ | ⟨hfew, he⟩
  · rcases le_or_gt e 971 with hhigh | hlarge
    · rw [unpack_pack_normal hlog hlow hhigh] at ha
      rw [min_eq_left (Canonical.lt_tooLarge (.inl ⟨hlog, hlow, hhigh⟩)).le]
      exact holds_finite ha
    · rw [unpack_pack_overflow hlarge] at ha
      rw [min_eq_right (le_tooLarge_of_exponent ((Nat.log2_eq_iff hm.ne').mp hlog).1 hlarge)]
      exact holds_infinity ha
  · rw [unpack_pack_subnormal hfew he] at ha
    rw [min_eq_left (Canonical.lt_tooLarge (.inr ⟨hfew, he⟩)).le]
    exact holds_finite ha

theorem holds_pack {hm : 0 < m} (hc : Canonical m e)
    (ha : partsOf a = (Float.Model.pack (.finite .positive m e hm)).unpack) : Holds a (m * 2 ^ e) := by
  have hcanonical : m.log2 = 52 ∧ -1074 ≤ e ∨ m < 2 ^ 52 ∧ e = -1074 := hc.imp_left fun h => ⟨h.1, h.2.1⟩
  have h := holds_of_finite hcanonical ha
  rwa [min_eq_left hc.lt_tooLarge.le] at h

/-- A number whose bits are cut off below the last place is rounded once. -/
theorem holds_roundWithAccuracy {acc : Accuracy} (hx : Extends (.ofMantissaAndAccuracy m acc) x) (hpos : 0 < x)
    (hm : 0 < m ∨ e ≤ -1074) (he : e ≤ lastPlace (x * 2 ^ e))
    (ha : partsOf a = (Float.Model.pack (roundWithAccuracy .binary64 .positive m e acc)).unpack) :
    Holds a (rounded (x * 2 ^ e)) := by
  rcases roundWithAccuracy_nearest .positive hx hpos hm he with ⟨hround, hnearest⟩ | ⟨m', e', h', hround, hnearest, hc⟩
  · rw [hround, unpack_pack_zero] at ha
    rw [rounded, hnearest, min_eq_left tooLarge_pos.le]
    exact holds_zero ha
  · rw [hround] at ha
    rw [rounded, hnearest]
    exact holds_of_finite hc ha

theorem lastPlace_mul_two_zpow (hm : 0 < m) (e : ℤ) : lastPlace (m * 2 ^ e) = max (m.log2 + e - 52) (-1074) := by
  have htarget : Format.binary64.targetExponent (totalExponent m e) = max (m.log2 + 1 + e - 53) (-1074) := rfl
  rw [← targetExponent_eq_lastPlace (extends_exact m) (by exact_mod_cast hm) (.inl hm), htarget]
  omega

theorem natCast_mul_two_pow (m : ℕ) (e : ℤ) (d : ℕ) : ((m * 2 ^ d : ℕ) : ℚ) * 2 ^ (e - d) = m * 2 ^ e := by
  rw [Nat.cast_mul, mul_assoc, Nat.cast_pow, Nat.cast_ofNat, ← zpow_natCast, ← two_zpow_add]
  congr 2
  omega

/-- A whole number of some power of two is rounded once. -/
theorem holds_round (hm : 0 < m)
    (ha : partsOf a = (Float.Model.pack (UnpackedFloat.round .binary64 .positive m e)).unpack) :
    Holds a (rounded (m * 2 ^ e)) := by
  have htarget := targetExponent_eq_lastPlace (e := e) (extends_exact m) (by exact_mod_cast hm) (.inl hm)
  simp only [UnpackedFloat.round, htarget, decreaseExponent_eq] at ha
  generalize hd : (e - lastPlace (m * 2 ^ e)).toNat = d at ha
  have hsame : ((m * 2 ^ d : ℕ) : ℚ) * 2 ^ (e - d) = m * 2 ^ e := natCast_mul_two_pow m e d
  have hpos : 0 < m * 2 ^ d := Nat.mul_pos hm (Nat.two_pow_pos d)
  have hround := holds_roundWithAccuracy (extends_exact (m * 2 ^ d)) (by exact_mod_cast hpos) (.inl hpos)
    (by rw [hsame]; omega) ha
  rwa [hsame] at hround

/-! ## Products and quotients -/

/-- The product of two floats has no bits to lose in front of its last place. -/
theorem Canonical.add_le_lastPlace (h : Canonical m e) (h' : Canonical n d) (hm : 0 < m) (hn : 0 < n) :
    e + d ≤ lastPlace ((m * n : ℕ) * 2 ^ (e + d)) := by
  have hlog := log2_add_log2_le hm.ne' hn.ne'
  rw [lastPlace_mul_two_zpow (Nat.mul_pos hm hn)]
  rcases h with ⟨hfull, -, -⟩ | ⟨-, he⟩ <;> rcases h' with ⟨hfull', -, -⟩ | ⟨-, hd⟩ <;> omega

/-- A product is rounded once. The product of infinity and a number below one is left out. -/
theorem Holds.mul (ha : Holds a x) (hb : Holds b y) (hx : x < tooLarge ∨ 1 ≤ y) (hy : y < tooLarge) :
    Holds (a * b) (rounded (x * y)) := by
  have hparts := partsOf_mul a b
  rcases hb.cases with ⟨-, rfl⟩ | ⟨⟨t, hv⟩, rfl⟩ | ⟨n, d, hn, hv, hc', rfl⟩
  · exact absurd hy (lt_irrefl _)
  · have hfinite := hx.resolve_right (by norm_num)
    rw [mul_zero, representable_zero.rounded_eq tooLarge_pos.le]
    rcases ha.cases with ⟨-, rfl⟩ | ⟨⟨s, hu⟩, rfl⟩ | ⟨m, e, hm, hu, hc, rfl⟩
    · exact absurd hfinite (lt_irrefl _)
    · rw [hu, hv] at hparts
      exact holds_zero (hparts.trans (unpack_pack_zero _))
    · rw [hu, hv] at hparts
      exact holds_zero (hparts.trans (unpack_pack_zero _))
  · rcases ha.cases with ⟨hu, rfl⟩ | ⟨⟨s, hu⟩, rfl⟩ | ⟨m, e, hm, hu, hc, rfl⟩
    · have hone := hx.resolve_left (lt_irrefl _)
      rw [hu, hv] at hparts
      rw [rounded_of_tooLarge_le (le_mul_of_one_le_right tooLarge_pos.le hone)]
      exact holds_infinity (hparts.trans (unpack_pack_infinity _))
    · rw [hu, hv] at hparts
      rw [zero_mul, representable_zero.rounded_eq tooLarge_pos.le]
      exact holds_zero (hparts.trans (unpack_pack_zero _))
    · rw [hu, hv] at hparts
      have hpos := Nat.mul_pos hm hn
      have hround := holds_roundWithAccuracy (extends_exact (m * n)) (by exact_mod_cast hpos) (.inl hpos)
        (hc.add_le_lastPlace hc' hm hn) hparts
      have hproduct : ((m * n : ℕ) : ℚ) * 2 ^ (e + d) = m * 2 ^ e * (n * 2 ^ d) := by
        rw [two_zpow_add]
        push_cast
        ring
      rwa [hproduct] at hround

private theorem two_pow_mul_le {k : ℕ} (hm : 0 < m) (h : n.log2 + 53 ≤ m.log2 + k) : 2 ^ 52 * n ≤ m * 2 ^ k := by
  calc 2 ^ 52 * n ≤ 2 ^ 52 * 2 ^ (n.log2 + 1) := Nat.mul_le_mul_left _ Nat.lt_log2_self.le
    _ = 2 ^ (52 + (n.log2 + 1)) := (Nat.pow_add _ _ _).symm
    _ ≤ 2 ^ (m.log2 + k) := Nat.pow_le_pow_right (by decide) (by omega)
    _ = 2 ^ m.log2 * 2 ^ k := Nat.pow_add _ _ _
    _ ≤ m * 2 ^ k := Nat.mul_le_mul_right _ (Nat.log2_self_le hm.ne')

/-- The quotient of two positive numbers is computed with enough bits. -/
theorem divCore_extends (hm : 0 < m) (hn : 0 < n) (e d : ℤ) :
    ∃ q t acc z, divCore .binary64 m e n d = (q, t, acc) ∧ Extends (.ofMantissaAndAccuracy q acc) z ∧ 0 < z ∧
      z * 2 ^ t = m * 2 ^ e / (n * 2 ^ d) ∧ (0 < q ∨ t ≤ -1074) ∧ t ≤ lastPlace (z * 2 ^ t) := by
  have htarget : Format.binary64.targetExponent (totalExponent m e - totalExponent n d) =
      max (m.log2 + 1 + e - (n.log2 + 1 + d) - 53) (-1074) := rfl
  let t : ℤ := min (e - d) (max (m.log2 + 1 + e - (n.log2 + 1 + d) - 53) (-1074))
  let k : ℕ := (e - d - t).toNat
  have hcore : divCore .binary64 m e n d = (m * 2 ^ k / n, t, accuracyOfFraction (m * 2 ^ k % n) n) := by
    simp only [divCore, htarget, Nat.shiftLeft_eq]
    rfl
  have hz := extends_fraction (m * 2 ^ k / n) (Nat.mod_lt (m * 2 ^ k) hn)
  rw [← div_eq_div_add_mod _ hn] at hz
  have hpos : (0 : ℚ) < (m * 2 ^ k : ℕ) / n :=
    div_pos (by exact_mod_cast Nat.mul_pos hm (Nat.two_pow_pos k)) (by exact_mod_cast hn)
  have hk : (k : ℤ) = e - d - t := Int.toNat_of_nonneg (by omega)
  have hvalue : ((m * 2 ^ k : ℕ) : ℚ) / n * 2 ^ t = m * 2 ^ e / (n * 2 ^ d) := by
    have hexponent : (2 : ℚ) ^ k * 2 ^ t * 2 ^ d = 2 ^ e := by
      rw [← zpow_natCast, ← two_zpow_add, ← two_zpow_add, hk]
      congr 1
      omega
    have hn0 : (n : ℚ) ≠ 0 := by exact_mod_cast hn.ne'
    have hd0 := (two_zpow_pos d).ne'
    rw [← hexponent]
    push_cast
    field_simp
  refine ⟨_, t, _, _, hcore, hz, hpos, hvalue, ?_⟩
  rcases le_or_gt t (-1074) with hleast | hmore
  · exact ⟨.inr hleast, hleast.trans (le_max_right _ _)⟩
  · -- The quotient has 53 bits at least.
    have hbits : 2 ^ 52 * n ≤ m * 2 ^ k := two_pow_mul_le hm (by omega)
    have hq : 2 ^ 52 ≤ m * 2 ^ k / n := (Nat.le_div_iff_mul_le hn).mpr hbits
    have hz52 : (2 : ℚ) ^ (52 : ℤ) ≤ (m * 2 ^ k : ℕ) / n := by
      rw [le_div_iff₀ (by exact_mod_cast hn)]
      exact_mod_cast hbits
    have hlog : 52 + t ≤ Int.log 2 (((m * 2 ^ k : ℕ) : ℚ) / n * 2 ^ t) := by
      rw [log_mul_two_zpow t hpos]
      have := le_log hz52
      omega
    refine ⟨.inl (by omega), le_trans ?_ (le_max_left _ _)⟩
    omega

/-- A quotient of numbers is rounded once. -/
theorem Holds.div (ha : Holds a x) (hb : Holds b y) (hx : x < tooLarge) (hy0 : 0 < y) (hy : y < tooLarge) :
    Holds (a / b) (rounded (x / y)) := by
  have hparts := partsOf_div a b
  rcases hb.cases with ⟨-, rfl⟩ | ⟨-, rfl⟩ | ⟨n, d, hn, hv, -, rfl⟩
  · exact absurd hy (lt_irrefl _)
  · exact absurd hy0 (lt_irrefl _)
  · rcases ha.cases with ⟨-, rfl⟩ | ⟨⟨s, hu⟩, rfl⟩ | ⟨m, e, hm, hu, -, rfl⟩
    · exact absurd hx (lt_irrefl _)
    · rw [hu, hv] at hparts
      rw [zero_div, representable_zero.rounded_eq tooLarge_pos.le]
      exact holds_zero (hparts.trans (unpack_pack_zero _))
    · obtain ⟨q, t, acc, z, hcore, hz, hpos, hvalue, hq, ht⟩ := divCore_extends hm hn e d
      rw [hu, hv] at hparts
      simp only [UnpackedFloat.div, hcore] at hparts
      rw [← hvalue]
      exact holds_roundWithAccuracy hz hpos hq ht hparts

/-- Infinity stays infinity if it is divided. -/
theorem Holds.div_of_tooLarge (ha : Holds a tooLarge) (hb : Holds b y) (hy0 : 0 < y) (hy : y < tooLarge) :
    Holds (a / b) tooLarge := by
  have hparts := partsOf_div a b
  rcases ha.cases with ⟨hu, -⟩ | ⟨-, hx⟩ | ⟨m, e, hm, -, hc, hx⟩
  · rcases hb.cases with ⟨-, rfl⟩ | ⟨-, rfl⟩ | ⟨n, d, hn, hv, -, -⟩
    · exact absurd hy (lt_irrefl _)
    · exact absurd hy0 (lt_irrefl _)
    · rw [hu, hv] at hparts
      exact holds_infinity (hparts.trans (unpack_pack_infinity _))
  · exact absurd hx tooLarge_pos.ne'
  · exact absurd hx hc.lt_tooLarge.ne'

/-! ## Sums and differences -/

/-- A number with a smaller exponent. -/
theorem natCast_mul_two_pow_toNat (m : ℕ) (h : d ≤ e) : ((m * 2 ^ (e - d).toNat : ℕ) : ℚ) * 2 ^ d = m * 2 ^ e := by
  have hsame := natCast_mul_two_pow m e (e - d).toNat
  have hexponent : e - ((e - d).toNat : ℤ) = d := by omega
  rwa [hexponent] at hsame

/-- A sum is rounded once. -/
theorem Holds.add (ha : Holds a x) (hb : Holds b y) : Holds (a + b) (rounded (x + y)) := by
  have hparts := partsOf_add a b
  have hlarge : ∀ {z : ℚ}, 0 ≤ z → rounded (tooLarge + z) = tooLarge := fun hz =>
    rounded_of_tooLarge_le (le_add_of_nonneg_right hz)
  rcases ha.cases with ⟨hu, rfl⟩ | ⟨⟨s, hu⟩, rfl⟩ | ⟨m, e, hm, hu, hc, rfl⟩
  · rw [hlarge hb.zero_le]
    rcases hb.cases with ⟨hv, -⟩ | ⟨⟨t, hv⟩, -⟩ | ⟨n, d, hn, hv, -, -⟩ <;> rw [hu, hv] at hparts <;>
      exact holds_infinity (hparts.trans (unpack_pack_infinity _))
  · rw [zero_add, hb.rounded_eq]
    rcases hb.cases with ⟨hv, rfl⟩ | ⟨⟨t, hv⟩, rfl⟩ | ⟨n, d, hn, hv, hc', rfl⟩ <;> rw [hu, hv] at hparts
    · exact holds_infinity (hparts.trans (unpack_pack_infinity _))
    · cases s <;> cases t <;> exact holds_zero (hparts.trans (unpack_pack_zero _))
    · exact holds_pack hc' hparts
  · rcases hb.cases with ⟨hv, rfl⟩ | ⟨⟨t, hv⟩, rfl⟩ | ⟨n, d, hn, hv, hc', rfl⟩ <;> rw [hu, hv] at hparts
    · rw [add_comm, hlarge ha.zero_le]
      exact holds_infinity (hparts.trans (unpack_pack_infinity _))
    · rw [add_zero, ha.rounded_eq]
      exact holds_pack hc hparts
    · rw [add_finite] at hparts
      have hround := holds_round (Nat.add_pos_left (Nat.mul_pos hm (Nat.two_pow_pos _)) _) hparts
      rwa [Nat.cast_add, add_mul, natCast_mul_two_pow_toNat m (min_le_left e d),
        natCast_mul_two_pow_toNat n (min_le_right e d)] at hround

/-- A difference that is not negative is rounded once. -/
theorem Holds.sub (ha : Holds a x) (hb : Holds b y) (hx : x < tooLarge) (hyx : y ≤ x) :
    Holds (a - b) (rounded (x - y)) := by
  have hparts := partsOf_sub a b
  rcases ha.cases with ⟨-, rfl⟩ | ⟨⟨s, hu⟩, rfl⟩ | ⟨m, e, hm, hu, hc, rfl⟩
  · exact absurd hx (lt_irrefl _)
  · obtain rfl : y = 0 := le_antisymm hyx hb.zero_le
    rw [sub_zero, ha.rounded_eq]
    rcases hb.cases with ⟨-, hy⟩ | ⟨⟨t, hv⟩, -⟩ | ⟨n, d, hn, -, -, hy⟩
    · exact absurd hy tooLarge_pos.ne
    · rw [hu, hv] at hparts
      cases s <;> cases t <;> exact holds_zero (hparts.trans (unpack_pack_zero _))
    · exact absurd hy (mul_pos (by exact_mod_cast hn) (two_zpow_pos d)).ne
  · rcases hb.cases with ⟨-, rfl⟩ | ⟨⟨t, hv⟩, rfl⟩ | ⟨n, d, hn, hv, hc', rfl⟩
    · exact absurd (hyx.trans_lt hx) (lt_irrefl _)
    · rw [hu, hv] at hparts
      rw [sub_zero, ha.rounded_eq]
      exact holds_pack hc hparts
    · rw [hu, hv] at hparts
      have hm' := natCast_mul_two_pow_toNat m (min_le_left e d)
      have hn' := natCast_mul_two_pow_toNat n (min_le_right e d)
      have hle : n * 2 ^ (d - min e d).toNat ≤ m * 2 ^ (e - min e d).toNat := by
        rw [← hm', ← hn'] at hyx
        exact_mod_cast le_of_mul_le_mul_right hyx (two_zpow_pos _)
      rcases hle.eq_or_lt with heq | hlt
      · have hsame : (m : ℚ) * 2 ^ e = n * 2 ^ d := by rw [← hm', ← hn', heq]
        have hzero : UnpackedFloat.sub .binary64 (.finite .positive m e hm) (.finite .positive n d hn) =
            .zero .positive := by
          simp only [UnpackedFloat.sub, decreaseExponent_eq, Sign.apply, heq, sub_self]
          rfl
        rw [hsame, sub_self, representable_zero.rounded_eq tooLarge_pos.le]
        rw [hzero] at hparts
        exact holds_zero (hparts.trans (unpack_pack_zero _))
      · rw [sub_finite hm hn hlt] at hparts
        have hround := holds_round (Nat.sub_pos_of_lt hlt) hparts
        rwa [Nat.cast_sub hle, sub_mul, hm', hn'] at hround

/-- Infinity stays infinity if something finite is taken away. -/
theorem Holds.sub_of_tooLarge (ha : Holds a tooLarge) (hb : Holds b y) (hy : y < tooLarge) :
    Holds (a - b) tooLarge := by
  have hparts := partsOf_sub a b
  rcases ha.cases with ⟨hu, -⟩ | ⟨-, hx⟩ | ⟨m, e, hm, -, hc, hx⟩
  · rcases hb.cases with ⟨-, rfl⟩ | ⟨⟨t, hv⟩, -⟩ | ⟨n, d, hn, hv, -, -⟩
    · exact absurd hy (lt_irrefl _)
    · rw [hu, hv] at hparts
      exact holds_infinity (hparts.trans (unpack_pack_infinity _))
    · rw [hu, hv] at hparts
      exact holds_infinity (hparts.trans (unpack_pack_infinity _))
  · exact absurd hx tooLarge_pos.ne'
  · exact absurd hx hc.lt_tooLarge.ne'

/-! ## Whole numbers -/

theorem holds_one : Holds 1.0 1 := by
  have h := holds_finite partsOf_one
  have hvalue : ((2 ^ 52 : ℕ) : ℚ) * 2 ^ (-52 : ℤ) = 1 := by norm_num
  rwa [hvalue] at h

/-- A float that is at least one holds a number. -/
theorem exists_holds_of_one_le (h : 1.0 ≤ a) : ∃ x, Holds a x ∧ 1 ≤ x := by
  have hnonneg : Nonneg (partsOf a) := by
    rw [le_iff_compare, partsOf_one] at h
    generalize partsOf a = u at h
    cases u with
    | notANumber => cases h
    | zero s => exact .zero s
    | infinity s =>
      cases s with
      | positive => exact .infinity
      | negative => cases h
    | finite s m e hm =>
      cases s with
      | positive => exact .finite
      | negative => cases h
  have ha : Holds a (value (partsOf a)) := ⟨hnonneg, rfl⟩
  exact ⟨_, ha, (holds_one.le_iff ha).mp h⟩

theorem natCast_lt_tooLarge (h : n ≤ 2 ^ 53) : (n : ℚ) < tooLarge := by
  calc (n : ℚ) ≤ 2 ^ (53 : ℤ) := by exact_mod_cast h
    _ < tooLarge := zpow_lt_zpow_right₀ (by norm_num) (by norm_num)

theorem two_pow_lt_tooLarge : (2 : ℚ) ^ 53 < tooLarge := by
  exact_mod_cast natCast_lt_tooLarge (n := 2 ^ 53) le_rfl

theorem rounded_natCast (h : n ≤ 2 ^ 53) : rounded n = n :=
  (representable_natCast h).rounded_eq (natCast_lt_tooLarge h).le

theorem holds_toFloat (h : n < 2 ^ 53) : Holds n.toUInt64.toFloat n := by
  rcases Nat.eq_zero_or_pos n with rfl | hn
  · exact_mod_cast holds_zero (a := Nat.toFloat 0) rfl
  · have hround := holds_round (a := n.toUInt64.toFloat) (e := 0) hn
      (congrArg Float.Model.unpack (toModel_toFloat hn.ne' h))
    rwa [zpow_zero, mul_one, rounded_natCast h.le] at hround

/-- A natural number is rounded once. -/
theorem holds_ofNat (n : ℕ) : Holds (Float.ofNat n) (rounded n) := by
  rcases Nat.lt_or_ge n (2 ^ 53) with hsmall | hlarge
  · have hfactor : Holds (Float.ofBits 4607182418800017408) 1 := holds_one
    have hmul := (holds_toFloat hsmall).mul hfactor (.inr le_rfl)
      (by exact_mod_cast natCast_lt_tooLarge (n := 1) (by decide))
    rwa [mul_one, ← ofNat_eq_mul_one hsmall] at hmul
  · have hpos : 0 < n * 2 ^ 53 := by positivity
    have hvalue : ((n * 2 ^ 53 : ℕ) : ℚ) * 2 ^ (-53 : ℤ) = n := by
      simpa using natCast_mul_two_pow n 0 53
    have hround := holds_roundWithAccuracy (a := Float.ofNat n) (extends_exact (n * 2 ^ 53)) (by exact_mod_cast hpos)
      (.inl hpos) ((by decide : (-53 : ℤ) ≤ -52).trans ?_) (congrArg Float.Model.unpack (toModel_ofNat_large hlarge))
    · rwa [hvalue] at hround
    · rw [lastPlace_mul_two_zpow hpos]
      have := log2_mul_two_pow (by omega : n ≠ 0) 53
      omega

theorem le_floor_tooLarge : 2 ^ 64 - 1 ≤ ⌊tooLarge⌋₊ := by
  apply Nat.le_floor
  refine le_trans ?_ (zpow_le_zpow_right₀ (a := (2 : ℚ)) (by norm_num) (by norm_num : (64 : ℤ) ≤ 1024))
  norm_num

/-- The fraction is dropped, and what is too large gives the greatest word. -/
theorem Holds.toNat_toUInt64 (h : Holds a x) : a.toUInt64.toNat = min ⌊x⌋₊ (2 ^ 64 - 1) := by
  have hword : a.toUInt64.toNat =
      (UInt64.ofNatClamp (UnpackedFloat.toInt 0 (UInt64.size - 1) (partsOf a)).toNat).toNat := rfl
  have hclamp : ∀ n : ℕ, (UInt64.ofNatClamp n).toNat = min n (2 ^ 64 - 1) := by
    intro n
    rcases Nat.lt_or_ge n UInt64.size with hlt | hge
    · rw [UInt64.toNat_ofNatClamp_of_lt hlt, min_eq_left (by have : UInt64.size = 2 ^ 64 := rfl; omega)]
    · rw [UInt64.toNat_ofNatClamp_of_le hge, min_eq_right (by have : UInt64.size = 2 ^ 64 := rfl; omega)]
      rfl
  rw [hword, hclamp]
  rcases h.cases with ⟨hu, rfl⟩ | ⟨⟨s, hu⟩, rfl⟩ | ⟨m, e, hm, hu, hc, rfl⟩ <;> rw [hu]
  · rw [min_eq_right le_floor_tooLarge]
    decide
  · simp [UnpackedFloat.toInt]
  · have hround : (UnpackedFloat.toInt 0 (UInt64.size - 1) (.finite .positive m e hm)).toNat = ⌊(m : ℚ) * 2 ^ e⌋₊ := by
      show (roundToInt .positive m e).toNat = _
      rw [roundToInt_positive, Int.toNat_natCast, ← Nat.floor_div_eq_div (K := ℚ)]
      congr 1
      rw [div_eq_iff (by positivity)]
      push_cast
      rw [mul_assoc, ← zpow_natCast, ← zpow_natCast, ← two_zpow_add]
      congr 2
      omega
    rw [hround]

theorem holds_shifted {k : ℕ} {h : 0 < n * 2 ^ k} (ha : partsOf a = .finite .positive (n * 2 ^ k) (-k) h) :
    Holds a n := by
  have hvalue : ((n * 2 ^ k : ℕ) : ℚ) * 2 ^ (-k : ℤ) = n := by simp
  have hfinite := holds_finite ha
  rwa [hvalue] at hfinite

/-- The powers of ten in the table are exact. -/
theorem holds_powerOfTen {places : ℕ} (h : places ≤ 6) (hsize : places < Float.exactlyRepresentablePowersOfTen.size) :
    Holds Float.exactlyRepresentablePowersOfTen[places] (10 ^ places : ℕ) := by
  interval_cases places
  · exact holds_shifted (a := Float.ofBits 4607182418800017408) (k := 52) (h := by decide) rfl
  · exact holds_shifted (a := Float.ofBits 4621819117588971520) (k := 49) (h := by decide) rfl
  · exact holds_shifted (a := Float.ofBits 4636737291354636288) (k := 46) (h := by decide) rfl
  · exact holds_shifted (a := Float.ofBits 4652007308841189376) (k := 43) (h := by decide) rfl
  · exact holds_shifted (a := Float.ofBits 4666723172467343360) (k := 39) (h := by decide) rfl
  · exact holds_shifted (a := Float.ofBits 4681608360884174848) (k := 36) (h := by decide) rfl
  · exact holds_shifted (a := Float.ofBits 4696837146684686336) (k := 33) (h := by decide) rfl

/-- A decimal fraction with few places is rounded once. -/
theorem holds_ofScientific (n : ℕ) {places : ℕ} (hpos : 0 < places) (h : places ≤ 6) :
    Holds (Float.ofScientific n true places) (rounded (n / (10 ^ places : ℕ))) := by
  have hten : 0 < 10 ^ places := by positivity
  rcases Nat.lt_or_ge n (2 ^ 53) with hsmall | hlarge
  · have hten' : 10 ^ places ≤ 2 ^ 53 := (Nat.pow_le_pow_right (by decide) h).trans (by decide)
    have hpower := holds_powerOfTen h (by simp [Float.exactlyRepresentablePowersOfTen]; omega)
    have hdiv := (holds_toFloat hsmall).div hpower (natCast_lt_tooLarge hsmall.le) (by exact_mod_cast hten)
      (natCast_lt_tooLarge hten')
    rw [Float.ofScientific, dif_pos ⟨hsmall, by omega⟩]
    exact hdiv
  · have hn : n ≠ 0 := by
      rintro rfl
      simp at hlarge
    obtain ⟨q, t, acc, z, hcore, hz, hzpos, hvalue, hq, ht⟩ := divCore_extends (Nat.pos_of_ne_zero hn) hten 0 0
    rw [zpow_zero, mul_one, mul_one] at hvalue
    have hparts : partsOf (Float.ofScientific n true places) =
        (Float.Model.pack (roundWithAccuracy .binary64 .positive q t acc)).unpack := by
      have hrange : (2 : Int) ^ Format.binary64.exponentBits = 2048 := rfl
      have hexponent : Int.negOfNat places = -(places : ℤ) := Int.negOfNat_eq
      have hnat : (-(-(places : ℤ))).toNat = places := by omega
      have hmodel : UnpackedFloat.ofScientific .binary64 n (Int.negOfNat places) =
          roundWithAccuracy .binary64 .positive q t acc := by
        rw [UnpackedFloat.ofScientific, dif_neg hn, hrange, hexponent, if_neg (by omega), if_neg (by omega),
          if_neg (by omega)]
        simp only [UnpackedFloat.div, hnat, hcore]
        rfl
      rw [← hmodel, Float.ofScientific, dif_neg fun hboth => absurd hboth.1 (by omega)]
      rfl
    rw [← hvalue]
    exact holds_roundWithAccuracy hz hzpos hq ht hparts

end TrafficPolicy.Number
