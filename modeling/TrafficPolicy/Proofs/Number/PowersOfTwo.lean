import TrafficPolicy.Proofs.Number.Packing

/-!
# Floats between powers of two

How large a float is, up to a power of two, and what the operations make of it. A float that is at least some power of
two may be infinite; one that is below a power of two is finite.
-/

namespace TrafficPolicy.Number

open Float.Model Float.Model.UnpackedFloat

abbrev partsOf (x : Float) : UnpackedFloat := x.toModel.unpack

/-- A float is at least a power of two. -/
inductive AtLeast (j : Int) : UnpackedFloat → Prop
  | infinity : AtLeast j (.infinity .positive)
  | finite {m : Nat} {e : Int} {h : 0 < m} : j ≤ m.log2 + e → AtLeast j (.finite .positive m e h)

/-- A float is below a power of two, and not below zero. -/
inductive Below (k : Int) : UnpackedFloat → Prop
  | zero (s : Sign) : Below k (.zero s)
  | finite {m : Nat} {e : Int} {h : 0 < m} : m.log2 + e < k → Below k (.finite .positive m e h)

/-- A float is a number, infinite or not, and not below zero. -/
inductive Nonneg : UnpackedFloat → Prop
  | infinity : Nonneg (.infinity .positive)
  | zero (s : Sign) : Nonneg (.zero s)
  | finite {m : Nat} {e : Int} {h : 0 < m} : Nonneg (.finite .positive m e h)

variable {a b x : Float} {m : Nat} {e j k : Int} {h : 0 < m}

theorem AtLeast.nonneg {u : UnpackedFloat} (h : AtLeast j u) : Nonneg u := by
  cases h with
  | infinity => exact .infinity
  | finite => exact .finite

theorem AtLeast.mono {u : UnpackedFloat} (h : AtLeast j u) (hkj : k ≤ j) : AtLeast k u := by
  cases h with
  | infinity => exact .infinity
  | finite hj => exact .finite (hkj.trans hj)

theorem AtLeast.cases {u : UnpackedFloat} (h : AtLeast j u) :
    (∃ m e hm, u = .finite .positive m e hm) ∨ u = .infinity .positive := by
  cases h with
  | infinity => exact .inr rfl
  | finite => exact .inl ⟨_, _, _, rfl⟩

theorem isFinite_eq (x : Float) : x.isFinite = (partsOf x).isFinite := rfl

theorem AtLeast.infinite (h : AtLeast j (partsOf x)) (hx : ¬x.isFinite = true) : partsOf x = .infinity .positive := by
  rcases h.cases with ⟨m, e, hm, hfinite⟩ | hinfinite
  · rw [isFinite_eq, hfinite] at hx
    exact absurd rfl hx
  · exact hinfinite

/-! ## What is packed -/

theorem atLeast_pack (hm : m.log2 = 52) (he : -1074 ≤ e) (hj : j ≤ e + 52) :
    AtLeast j (Float.Model.pack (.finite .positive m e h)).unpack := by
  by_cases hlarge : e ≤ 971
  · rw [unpack_pack_normal hm he hlarge]
    exact .finite (by omega)
  · rw [unpack_pack_overflow (by omega)]
    exact .infinity

theorem below_pack (hm : m.log2 = 52) (he : -1074 ≤ e) (hk : e + 52 < k) (hfinite : k ≤ 1024) :
    Below k (Float.Model.pack (.finite .positive m e h)).unpack := by
  rw [unpack_pack_normal hm he (by omega)]
  exact .finite (by omega)

theorem nonneg_pack (m : Nat) (e : Int) (h : 0 < m) : Nonneg (Float.Model.pack (.finite .positive m e h)).unpack := by
  rcases unpack_pack_finite .positive m e h with hpack | hpack | ⟨m', e', h', hpack⟩ <;> rw [hpack]
  · exact .infinity
  · exact .zero _
  · exact .finite

theorem atLeast_pack_infinity (j : Int) : AtLeast j (Float.Model.pack (.infinity .positive)).unpack := by
  rw [unpack_pack_infinity]
  exact .infinity

theorem nonneg_pack_infinity : Nonneg (Float.Model.pack (.infinity .positive)).unpack :=
  (atLeast_pack_infinity 0).nonneg

theorem nonneg_pack_zero (s : Sign) : Nonneg (Float.Model.pack (.zero s)).unpack := by
  rw [unpack_pack_zero]
  exact .zero _

/-- A float that is not too small has full precision. -/
theorem full_of_atLeast (hx : partsOf x = .finite .positive m e h) (hlow : -1022 ≤ m.log2 + e) :
    m.log2 = 52 ∧ -1074 ≤ e ∧ e ≤ 971 := by
  rcases canonical_of_unpack hx with hfull | ⟨hsmall, he⟩
  · exact hfull
  · have hlog := (Nat.log2_lt h.ne').mpr hsmall
    omega

/-- What is rounded to full precision does not fall below a power of two. -/
theorem atLeast_roundWithAccuracy (acc : Accuracy) (hm : 52 ≤ m.log2) (hj : j ≤ m.log2 + e) (hlow : -1022 ≤ j) :
    AtLeast j (Float.Model.pack (roundWithAccuracy .binary64 .positive m e acc)).unpack := by
  obtain ⟨m', e', h', hround, hm', he'⟩ := roundWithAccuracy_normal .positive acc hm (hlow.trans hj)
  rw [hround]
  exact atLeast_pack hm' (by omega) (by omega)

theorem atLeast_round (hm : m ≠ 0) (hj : j ≤ m.log2 + e) (hlow : -1022 ≤ j) :
    AtLeast j (Float.Model.pack (UnpackedFloat.round .binary64 .positive m e)).unpack := by
  obtain ⟨m', e', h', hround, hm', he'⟩ := round_normal .positive hm (hlow.trans hj)
  rw [hround]
  exact atLeast_pack hm' (by omega) (by omega)

theorem nonneg_roundWithAccuracy (m : Nat) (e : Int) (acc : Accuracy) :
    Nonneg (Float.Model.pack (roundWithAccuracy .binary64 .positive m e acc)).unpack := by
  rcases roundWithAccuracy_cases .positive m e acc with hround | ⟨m', e', h', hround⟩ <;> rw [hround]
  · exact nonneg_pack_zero _
  · exact nonneg_pack m' e' h'

/-! ## Products and quotients -/

theorem partsOf_mul (a b : Float) :
    partsOf (a * b) = (Float.Model.pack (UnpackedFloat.mul .binary64 (partsOf a) (partsOf b))).unpack := rfl

theorem partsOf_div (a b : Float) :
    partsOf (a / b) = (Float.Model.pack (UnpackedFloat.div .binary64 (partsOf a) (partsOf b))).unpack := rfl

theorem log2_add_log2_le {m n : Nat} (hm : m ≠ 0) (hn : n ≠ 0) : m.log2 + n.log2 ≤ (m * n).log2 := by
  rw [Nat.le_log2 (Nat.mul_ne_zero hm hn), Nat.pow_add]
  exact Nat.mul_le_mul (Nat.log2_self_le hm) (Nat.log2_self_le hn)

theorem AtLeast.mul (ha : AtLeast j (partsOf a)) (hb : AtLeast k (partsOf b)) (hj : -1022 ≤ j) (hk : -1022 ≤ k)
    (hjk : -1022 ≤ j + k) : AtLeast (j + k) (partsOf (a * b)) := by
  rw [partsOf_mul]
  generalize hu : partsOf a = u at ha ⊢
  generalize hv : partsOf b = v at hb ⊢
  cases ha with
  | infinity => cases hb <;> exact atLeast_pack_infinity _
  | @finite m e h hmag =>
    cases hb with
    | infinity => exact atLeast_pack_infinity _
    | @finite m' e' h' hmag' =>
      obtain ⟨hm, -, -⟩ := full_of_atLeast hu (by omega)
      obtain ⟨hm', -, -⟩ := full_of_atLeast hv (by omega)
      have hlog := log2_add_log2_le h.ne' h'.ne'
      exact atLeast_roundWithAccuracy .exact (by omega) (by omega) hjk

theorem Nonneg.mul (ha : Nonneg (partsOf a)) (hb : partsOf b = .finite .positive m e h) :
    Nonneg (partsOf (a * b)) := by
  rw [partsOf_mul, hb]
  generalize partsOf a = u at ha ⊢
  cases ha with
  | infinity => exact nonneg_pack_infinity
  | zero s => exact nonneg_pack_zero _
  | finite => exact nonneg_roundWithAccuracy _ _ _

theorem mul_infinity (ha : AtLeast j (partsOf a)) (hb : partsOf b = .infinity .positive) :
    partsOf (a * b) = .infinity .positive := by
  rw [partsOf_mul, hb]
  generalize partsOf a = u at ha ⊢
  cases ha <;> exact unpack_pack_infinity .positive

theorem zero_mul_infinity {s : Sign} (ha : partsOf a = .zero s) (hb : partsOf b = .infinity .positive) :
    partsOf (a * b) = .notANumber := by
  rw [partsOf_mul, ha, hb]
  exact unpack_pack_notANumber

theorem le_log2_div {m n d : Nat} (hm : m.log2 = 52) (hn : n.log2 = 52) (hd : 53 ≤ d) :
    d - 1 ≤ (m * 2 ^ d / n).log2 := by
  have hm0 : m ≠ 0 := by
    rintro rfl
    simp at hm
  have hn0 : n ≠ 0 := by
    rintro rfl
    simp at hn
  obtain ⟨hmlow, -⟩ := (Nat.log2_eq_iff hm0).mp hm
  obtain ⟨-, hnhigh⟩ := (Nat.log2_eq_iff hn0).mp hn
  have hbound : 2 ^ (d - 1) ≤ m * 2 ^ d / n := by
    rw [Nat.le_div_iff_mul_le (Nat.pos_of_ne_zero hn0)]
    calc 2 ^ (d - 1) * n ≤ 2 ^ (d - 1) * 2 ^ 53 := Nat.mul_le_mul_left _ hnhigh.le
      _ = 2 ^ 52 * 2 ^ d := by
        rw [← Nat.pow_add, ← Nat.pow_add]
        congr 1
        omega
      _ ≤ m * 2 ^ d := Nat.mul_le_mul_right _ hmlow
  have hpos : m * 2 ^ d / n ≠ 0 := by
    have := Nat.two_pow_pos (d - 1)
    omega
  exact (Nat.le_log2 hpos).mpr hbound

/-- The quotient of two floats of full precision has all bits that are rounded to full precision. -/
theorem divCore_full {m n : Nat} {d e : Int} (hm : m.log2 = 52) (hn : n.log2 = 52) (hlow : -1021 ≤ d - e) :
    ∃ q acc, divCore .binary64 m d n e = (q, d - e - 53, acc) ∧ 52 ≤ q.log2 := by
  refine ⟨m * 2 ^ 53 / n, accuracyOfFraction (m * 2 ^ 53 % n) n, ?_, le_log2_div hm hn (Nat.le_refl 53)⟩
  have htarget : Format.binary64.targetExponent (totalExponent m d - totalExponent n e) = d - e - 53 := by
    simp only [Format.targetExponent, totalExponent, Format.mantissaBits, Format.minExponent, hm, hn]
    norm_num
    omega
  have hmin : min (d - e) (d - e - 53) = d - e - 53 := by omega
  have hshift : (d - e - (d - e - 53)).toNat = 53 := by omega
  simp only [divCore, htarget, hmin, hshift, Nat.shiftLeft_eq]

theorem Nonneg.div (ha : Nonneg (partsOf a)) (hb : partsOf b = .finite .positive m e h) :
    Nonneg (partsOf (a / b)) := by
  rw [partsOf_div, hb]
  generalize partsOf a = u at ha ⊢
  cases ha with
  | infinity => exact nonneg_pack_infinity
  | zero s => exact nonneg_pack_zero _
  | finite => exact nonneg_roundWithAccuracy _ _ _

theorem AtLeast.div (ha : AtLeast j (partsOf a)) (hb : partsOf b = .finite .positive m e h) (hm : m.log2 = 52)
    (hj : -1022 ≤ j) (hquotient : -1022 ≤ j - (e + 53)) : AtLeast (j - (e + 53)) (partsOf (a / b)) := by
  rw [partsOf_div, hb]
  generalize hu : partsOf a = u at ha ⊢
  cases ha with
  | infinity => exact atLeast_pack_infinity _
  | @finite n d h' hmag =>
    obtain ⟨hn, -, -⟩ := full_of_atLeast hu (by omega)
    obtain ⟨q, acc, hcore, hlog⟩ := divCore_full hn hm (d := d) (e := e) (by omega)
    simp only [UnpackedFloat.div, hcore]
    exact atLeast_roundWithAccuracy acc hlog (by omega) hquotient

/-! ## Sums and differences -/

theorem partsOf_add (a b : Float) :
    partsOf (a + b) = (Float.Model.pack (UnpackedFloat.add .binary64 (partsOf a) (partsOf b))).unpack := rfl

theorem partsOf_sub (a b : Float) :
    partsOf (a - b) = (Float.Model.pack (UnpackedFloat.sub .binary64 (partsOf a) (partsOf b))).unpack := rfl

theorem log2_le_log2 {m n : Nat} (hm : m ≠ 0) (hmn : m ≤ n) : m.log2 ≤ n.log2 :=
  (Nat.le_log2 (by omega)).mpr ((Nat.log2_self_le hm).trans hmn)

theorem normalize_pos (hm : 0 < m) (e : Int) (s : Sign) :
    UnpackedFloat.normalize .binary64 (m : Int) e s = UnpackedFloat.round .binary64 .positive m e := by
  have hcompare : compare (m : Int) 0 = .gt := compare_gt_iff_gt.mpr (by omega)
  simp only [UnpackedFloat.normalize, hcompare, Int.toNat_natCast]

/-- Two finite floats are added with the lesser one of their exponents. -/
theorem add_finite (m n : Nat) (e d : Int) (h : 0 < m) (h' : 0 < n) :
    UnpackedFloat.add .binary64 (.finite .positive m e h) (.finite .positive n d h') =
      UnpackedFloat.round .binary64 .positive (m * 2 ^ (e - min e d).toNat + n * 2 ^ (d - min e d).toNat)
        (min e d) := by
  have hpos : 0 < m * 2 ^ (e - min e d).toNat := Nat.mul_pos h (Nat.two_pow_pos _)
  rw [← normalize_pos (Nat.add_pos_left hpos _) (min e d) .positive]
  simp only [UnpackedFloat.add, decreaseExponent_eq, Sign.apply, Nat.cast_add]

theorem sub_finite {m n : Nat} {e d : Int} (h : 0 < m) (h' : 0 < n)
    (hlt : n * 2 ^ (d - min e d).toNat < m * 2 ^ (e - min e d).toNat) :
    UnpackedFloat.sub .binary64 (.finite .positive m e h) (.finite .positive n d h') =
      UnpackedFloat.round .binary64 .positive (m * 2 ^ (e - min e d).toNat - n * 2 ^ (d - min e d).toNat)
        (min e d) := by
  rw [← normalize_pos (Nat.sub_pos_of_lt hlt) (min e d) .positive]
  simp only [UnpackedFloat.sub, decreaseExponent_eq, Sign.apply, Nat.cast_sub hlt.le]

theorem AtLeast.add (ha : AtLeast j (partsOf a)) (hb : Nonneg (partsOf b)) (hj : -1022 ≤ j) :
    AtLeast j (partsOf (a + b)) := by
  rw [partsOf_add]
  generalize hu : partsOf a = u at ha ⊢
  generalize partsOf b = v at hb ⊢
  cases ha with
  | infinity => cases hb <;> exact atLeast_pack_infinity _
  | @finite m e h hmag =>
    obtain ⟨hm, hlow, hhigh⟩ := full_of_atLeast hu (by omega)
    cases hb with
    | infinity => exact atLeast_pack_infinity _
    | zero s =>
      have hadd : UnpackedFloat.add .binary64 (.finite .positive m e h) (.zero s) = .finite .positive m e h := rfl
      rw [hadd]
      exact atLeast_pack hm hlow (by omega)
    | @finite n d h' =>
      have hpos : m * 2 ^ (e - min e d).toNat ≠ 0 := Nat.mul_ne_zero h.ne' (Nat.two_pow_pos _).ne'
      have hshift := log2_mul_two_pow h.ne' (e - min e d).toNat
      have hsum := log2_le_log2 hpos (Nat.le_add_right _ (n * 2 ^ (d - min e d).toNat))
      rw [add_finite]
      exact atLeast_round (by omega) (by omega) hj

theorem atLeast_zero_add {s : Sign} (ha : partsOf a = .zero s) (hb : AtLeast j (partsOf b)) (hj : -1022 ≤ j) :
    AtLeast j (partsOf (a + b)) := by
  rw [partsOf_add, ha]
  generalize hv : partsOf b = v at hb ⊢
  cases hb with
  | infinity => exact atLeast_pack_infinity _
  | @finite m e h hmag =>
    obtain ⟨hm, hlow, hhigh⟩ := full_of_atLeast hv (by omega)
    exact atLeast_pack hm hlow (by omega)

theorem Nonneg.add (ha : Nonneg (partsOf a)) (hb : Nonneg (partsOf b)) : Nonneg (partsOf (a + b)) := by
  rw [partsOf_add]
  generalize partsOf a = u at ha ⊢
  generalize partsOf b = v at hb ⊢
  cases ha with
  | infinity => cases hb <;> exact nonneg_pack_infinity
  | zero s =>
    cases hb with
    | infinity => exact nonneg_pack_infinity
    | zero t => cases s <;> cases t <;> exact .zero _
    | finite => exact nonneg_pack _ _ _
  | finite =>
    cases hb with
    | infinity => exact nonneg_pack_infinity
    | zero t => exact nonneg_pack _ _ _
    | finite =>
      rw [add_finite]
      exact nonneg_roundWithAccuracy _ _ _

theorem le_log2_sub {m n i : Nat} (hm : i + 1 ≤ m.log2) (hn : n.log2 < i) : n < m ∧ i ≤ (m - n).log2 := by
  have hm0 : m ≠ 0 := by
    rintro rfl
    simp at hm
  have hlarge : 2 ^ (i + 1) ≤ m := (Nat.le_log2 hm0).mp hm
  have hsmall : n < 2 ^ i := Nat.lt_log2_self.trans_le (Nat.pow_le_pow_right (by decide) hn)
  have hdouble : 2 ^ (i + 1) = 2 ^ i * 2 := Nat.pow_succ 2 i
  have hpos := Nat.two_pow_pos i
  exact ⟨by omega, (Nat.le_log2 (by omega)).mpr (by omega)⟩

/-- What is taken away costs at most one power of two if it is smaller by one. -/
theorem AtLeast.sub (ha : AtLeast (k + 1) (partsOf a)) (hb : Below k (partsOf b)) (hk : -1022 ≤ k) :
    AtLeast k (partsOf (a - b)) := by
  rw [partsOf_sub]
  generalize hu : partsOf a = u at ha ⊢
  generalize partsOf b = v at hb ⊢
  cases ha with
  | infinity => cases hb <;> exact atLeast_pack_infinity _
  | @finite m e h hmag =>
    obtain ⟨hm, hlow, hhigh⟩ := full_of_atLeast hu (by omega)
    cases hb with
    | zero s =>
      have hsub : UnpackedFloat.sub .binary64 (.finite .positive m e h) (.zero s) = .finite .positive m e h := rfl
      rw [hsub]
      exact atLeast_pack hm hlow (by omega)
    | @finite n d h' hsmall =>
      have hm' := log2_mul_two_pow h.ne' (e - min e d).toNat
      have hn' := log2_mul_two_pow h'.ne' (d - min e d).toNat
      obtain ⟨hlt, hdifference⟩ := le_log2_sub (m := m * 2 ^ (e - min e d).toNat) (n := n * 2 ^ (d - min e d).toNat)
        (i := (k - min e d).toNat) (by omega) (by omega)
      rw [sub_finite h h' hlt]
      exact atLeast_round (by omega) (by omega) hk

/-! ## What is a number -/

theorem unpack_pack_zero_ne (s : Sign) : (Float.Model.pack (.zero s)).unpack ≠ .notANumber := by
  simp [unpack_pack_zero]

theorem unpack_pack_finite_ne (s : Sign) (m : Nat) (e : Int) (h : 0 < m) :
    (Float.Model.pack (.finite s m e h)).unpack ≠ .notANumber := by
  rcases unpack_pack_finite s m e h with hpack | hpack | ⟨_, _, _, hpack⟩ <;> simp [hpack]

theorem unpack_pack_roundWithAccuracy_ne (s : Sign) (m : Nat) (e : Int) (acc : Accuracy) :
    (Float.Model.pack (roundWithAccuracy .binary64 s m e acc)).unpack ≠ .notANumber := by
  rcases roundWithAccuracy_cases s m e acc with hround | ⟨m', e', h', hround⟩ <;> rw [hround]
  · exact unpack_pack_zero_ne s
  · exact unpack_pack_finite_ne s m' e' h'

theorem unpack_pack_normalize_ne (m e : Int) (s : Sign) :
    (Float.Model.pack (UnpackedFloat.normalize .binary64 m e s)).unpack ≠ .notANumber := by
  rw [UnpackedFloat.normalize]
  cases compare m 0 with
  | lt => exact unpack_pack_roundWithAccuracy_ne _ _ _ _
  | eq => exact unpack_pack_zero_ne s
  | gt => exact unpack_pack_roundWithAccuracy_ne _ _ _ _

theorem infinity_sub (ha : partsOf a = .infinity .positive) (hb : Below k (partsOf b)) :
    partsOf (a - b) = .infinity .positive := by
  rw [partsOf_sub, ha]
  generalize partsOf b = v at hb ⊢
  cases hb <;> exact unpack_pack_infinity .positive

theorem notANumber_sub (ha : partsOf a = .notANumber) (b : Float) : partsOf (a - b) = .notANumber := by
  rw [partsOf_sub, ha]
  exact unpack_pack_notANumber

/-- Only infinities of one sign have no difference, and what is taken away is finite. -/
theorem Nonneg.sub_ne_notANumber (ha : Nonneg (partsOf a)) (hb : Below k (partsOf b)) :
    partsOf (a - b) ≠ .notANumber := by
  rw [partsOf_sub]
  generalize partsOf a = u at ha ⊢
  generalize partsOf b = v at hb ⊢
  cases ha with
  | infinity =>
    have hsub : UnpackedFloat.sub .binary64 (.infinity .positive) v = .infinity .positive := by cases hb <;> rfl
    simp [hsub, unpack_pack_infinity]
  | zero s =>
    cases hb with
    | zero t => cases s <;> cases t <;> exact unpack_pack_zero_ne _
    | finite => exact unpack_pack_finite_ne _ _ _ _
  | @finite m e h =>
    cases hb with
    | zero t => exact unpack_pack_finite_ne _ _ _ _
    | finite => exact unpack_pack_normalize_ne _ _ _

theorem mul_ne_notANumber (ha : a.isFinite = true) (hb : b.isFinite = true) : partsOf (a * b) ≠ .notANumber := by
  rw [isFinite_eq] at ha hb
  rw [partsOf_mul]
  generalize partsOf a = u at ha ⊢
  generalize partsOf b = v at hb ⊢
  cases u with
  | notANumber => cases ha
  | infinity => cases ha
  | zero s =>
    cases v with
    | notANumber => cases hb
    | infinity => cases hb
    | zero t => exact unpack_pack_zero_ne _
    | finite => exact unpack_pack_zero_ne _
  | finite =>
    cases v with
    | notANumber => cases hb
    | infinity => cases hb
    | zero t => exact unpack_pack_zero_ne _
    | finite => exact unpack_pack_roundWithAccuracy_ne _ _ _ _

end TrafficPolicy.Number
