import TrafficPolicy.Proofs.Number.Rounding

/-!
# Packing floats into bits

What is packed comes out again, unless it is too large; then infinity comes out. Every finite float has full precision
or the least exponent.
-/

namespace TrafficPolicy.Number

open Float.Model Float.Model.UnpackedFloat

variable {spec : Format} {m : Nat} {e : Int} {h : 0 < m} {s : Sign}

/-! ## Packing into any format -/

theorem ofNat_ne_neg_one {bits n : Nat} (hn : n + 1 < 2 ^ bits) : BitVec.ofNat bits n ≠ -BitVec.ofNat bits 1 := by
  intro heq
  have hnat := congrArg BitVec.toNat heq
  rw [BitVec.toNat_ofNat, Nat.mod_eq_of_lt (by omega), BitVec.neg_one_eq_allOnes, BitVec.toNat_allOnes] at hnat
  omega

theorem zero_ne_neg_one (spec : Format) : BitVec.ofNat spec.exponentBits 0 ≠ -BitVec.ofNat spec.exponentBits 1 := by
  have hbits : 2 ^ 1 ≤ 2 ^ spec.exponentBits := Nat.pow_le_pow_right (by decide) spec.he
  exact ofNat_ne_neg_one (by omega)

/-- Bits whose exponent is not the greatest one are those of a number. -/
theorem unpack_packComponents_cases (s : Sign) {exponent : BitVec spec.exponentBits}
    (hexponent : exponent ≠ -BitVec.ofNat spec.exponentBits 1) (mantissa : BitVec spec.mantissaBitsWithoutImplicit) :
    UnpackedFloat.unpack spec (packComponents spec s exponent mantissa) = .zero s ∨
      ∃ m e h, UnpackedFloat.unpack spec (packComponents spec s exponent mantissa) = .finite s m e h := by
  simp only [UnpackedFloat.unpack, unpackMantissa_packComponents, unpackExponent_packComponents,
    unpackSign_packComponents, Sign.ofBitVec_toBitVec, if_neg hexponent]
  split
  · split
    · exact .inl rfl
    · rename_i hmantissa
      exact .inr ⟨_, _, by simpa [BitVec.toNat_pos, BitVec.pos_iff_ne_zero] using hmantissa, rfl⟩
  · exact .inr ⟨_, _, by simp, rfl⟩

theorem unpack_packedInfinity (spec : Format) (s : Sign) :
    UnpackedFloat.unpack spec (packedInfinity spec s) = .infinity s := by
  simp only [UnpackedFloat.unpack, packedInfinity, unpackMantissa_packComponents, unpackExponent_packComponents,
    unpackSign_packComponents, Sign.ofBitVec_toBitVec]
  rfl

theorem unpack_pack_cases (s : Sign) (m : Nat) (e : Int) (h : 0 < m) :
    UnpackedFloat.unpack spec (UnpackedFloat.pack spec (.finite s m e h)) = .infinity s ∨
      UnpackedFloat.unpack spec (UnpackedFloat.pack spec (.finite s m e h)) = .zero s ∨
      ∃ m' e' h', UnpackedFloat.unpack spec (UnpackedFloat.pack spec (.finite s m e h)) = .finite s m' e' h' := by
  simp only [UnpackedFloat.pack]
  split
  · exact .inl (unpack_packedInfinity spec s)
  · rename_i hsmall
    right
    split
    · exact unpack_packComponents_cases s (ofNat_ne_neg_one (Nat.lt_of_not_le hsmall)) _
    · exact unpack_packComponents_cases s (zero_ne_neg_one spec) _

theorem unpack_pack_large (he : 2 ^ spec.exponentBits ≤
    (e + spec.exponentBias + spec.mantissaBitsWithoutImplicit).toNat + 1) :
    UnpackedFloat.unpack spec (UnpackedFloat.pack spec (.finite s m e h)) = .infinity s := by
  simp only [UnpackedFloat.pack, if_pos he]
  exact unpack_packedInfinity spec s

theorem toNat_append_one {bits : Nat} (mantissa : BitVec bits) :
    (1#1 ++ mantissa).toNat = 2 ^ bits + mantissa.toNat := by
  rw [BitVec.toNat_append, ← Nat.shiftLeft_add_eq_or_of_lt mantissa.isLt]
  simp [Nat.shiftLeft_eq]

theorem unpack_pack_full (hm : m.log2 = spec.mantissaBitsWithoutImplicit)
    (hlow : 0 < e + spec.exponentBias + spec.mantissaBitsWithoutImplicit)
    (hhigh : (e + spec.exponentBias + spec.mantissaBitsWithoutImplicit).toNat + 1 < 2 ^ spec.exponentBits) :
    UnpackedFloat.unpack spec (UnpackedFloat.pack spec (.finite s m e h)) = .finite s m e h := by
  obtain ⟨hge, hlt⟩ := (Nat.log2_eq_iff h.ne').mp hm
  have hfull : m.log2 + 1 = spec.mantissaBits := by rw [hm, Format.mantissaBits, Nat.add_comm]
  generalize hbiased : (e + spec.exponentBias + spec.mantissaBitsWithoutImplicit).toNat = biased at hhigh
  have hexponent : (BitVec.ofNat spec.exponentBits biased).toNat = biased := by
    rw [BitVec.toNat_ofNat, Nat.mod_eq_of_lt (by omega)]
  have hzero : BitVec.ofNat spec.exponentBits biased ≠ BitVec.ofNat spec.exponentBits 0 := by
    intro heq
    rw [heq, BitVec.toNat_zero] at hexponent
    omega
  have hmantissa : (1#1 ++ BitVec.ofNat spec.mantissaBitsWithoutImplicit m).toNat = m := by
    rw [toNat_append_one, BitVec.toNat_ofNat, Nat.mod_eq_sub_mod hge, Nat.mod_eq_of_lt (by omega)]
    omega
  simp only [UnpackedFloat.pack, hbiased, if_neg (Nat.not_le.mpr hhigh), if_pos hfull, UnpackedFloat.unpack,
    unpackMantissa_packComponents, unpackExponent_packComponents, unpackSign_packComponents,
    Sign.ofBitVec_toBitVec, if_neg (ofNat_ne_neg_one hhigh), if_neg hzero, hmantissa, hexponent]
  congr 1
  omega

/-- What has too few bits for full precision is packed with the exponent zero. -/
theorem unpack_pack_few (hm : m < 2 ^ spec.mantissaBitsWithoutImplicit)
    (he : e + spec.exponentBias + spec.mantissaBitsWithoutImplicit = 1) (hexponents : 2 < 2 ^ spec.exponentBits) :
    UnpackedFloat.unpack spec (UnpackedFloat.pack spec (.finite s m e h)) = .finite s m e h := by
  have hlog := (Nat.log2_lt h.ne').mpr hm
  have hfew : m.log2 + 1 ≠ spec.mantissaBits := by
    rw [Format.mantissaBits]
    omega
  have hmantissa : (BitVec.ofNat spec.mantissaBitsWithoutImplicit m).toNat = m := by
    rw [BitVec.toNat_ofNat, Nat.mod_eq_of_lt hm]
  have hpositive : BitVec.ofNat spec.mantissaBitsWithoutImplicit m ≠ BitVec.ofNat spec.mantissaBitsWithoutImplicit 0 := by
    intro heq
    rw [heq, BitVec.toNat_zero] at hmantissa
    omega
  have hone : (1 : Int).toNat + 1 = 2 := rfl
  simp only [UnpackedFloat.pack, he, hone, if_neg (Nat.not_le.mpr hexponents), if_neg hfew, UnpackedFloat.unpack,
    unpackMantissa_packComponents, unpackExponent_packComponents, unpackSign_packComponents,
    Sign.ofBitVec_toBitVec, if_neg (zero_ne_neg_one spec), if_true, dif_neg hpositive, hmantissa, BitVec.toNat_zero]
  congr 1
  omega

theorem log2_append_one {bits : Nat} (mantissa : BitVec bits) : (1#1 ++ mantissa).toNat.log2 = bits := by
  have hlt := mantissa.isLt
  rw [toNat_append_one, Nat.log2_eq_iff (by have := Nat.two_pow_pos bits; omega), Nat.pow_succ]
  omega

/-- What is unpacked has full precision, or the least exponent. -/
theorem canonical_of_unpack_bits {b : BitVec spec.numBits} (hb : UnpackedFloat.unpack spec b = .finite s m e h) :
    m.log2 = spec.mantissaBitsWithoutImplicit ∧ 0 < e + spec.exponentBias + spec.mantissaBitsWithoutImplicit ∧
        (e + spec.exponentBias + spec.mantissaBitsWithoutImplicit).toNat + 1 < 2 ^ spec.exponentBits ∨
      m < 2 ^ spec.mantissaBitsWithoutImplicit ∧ e + spec.exponentBias + spec.mantissaBitsWithoutImplicit = 1 := by
  simp only [UnpackedFloat.unpack] at hb
  generalize unpackExponent b = exponent at hb
  split at hb
  · split at hb <;> cases hb
  · rename_i hgreatest
    split at hb
    · rename_i hzero
      split at hb
      · cases hb
      · cases hb
        rw [hzero, BitVec.toNat_zero]
        exact .inr ⟨(unpackMantissa b).isLt, by omega⟩
    · rename_i hnonzero
      cases hb
      have hpos : exponent.toNat ≠ 0 := fun heq => hnonzero (BitVec.eq_of_toNat_eq (by rw [heq, BitVec.toNat_zero]))
      have hgreat : exponent.toNat + 1 ≠ 2 ^ spec.exponentBits := by
        intro heq
        apply hgreatest
        apply BitVec.eq_of_toNat_eq
        rw [BitVec.neg_one_eq_allOnes, BitVec.toNat_allOnes]
        omega
      have hlt := exponent.isLt
      exact .inl ⟨log2_append_one (unpackMantissa b), by omega, by omega⟩

/-! ## Floats -/

theorem unpack_pack_zero (s : Sign) : (Float.Model.pack (.zero s)).unpack = .zero s :=
  unpack_packedZero

theorem unpack_pack_infinity (s : Sign) : (Float.Model.pack (.infinity s)).unpack = .infinity s :=
  unpack_packedInfinity _ s

theorem unpack_pack_notANumber : (Float.Model.pack .notANumber).unpack = .notANumber := rfl

/-- Packing keeps the sign, and does not make an undefined number. -/
theorem unpack_pack_finite (s : Sign) (m : Nat) (e : Int) (h : 0 < m) :
    (Float.Model.pack (.finite s m e h)).unpack = .infinity s ∨
      (Float.Model.pack (.finite s m e h)).unpack = .zero s ∨
      ∃ m' e' h', (Float.Model.pack (.finite s m e h)).unpack = .finite s m' e' h' :=
  unpack_pack_cases s m e h

theorem exponentRange_binary64 : 2 ^ Format.binary64.exponentBits = 2048 := rfl

/-- The exponent that is packed for a float of full precision. -/
theorem biased_binary64 (e : Int) :
    e + Format.binary64.exponentBias + Format.binary64.mantissaBitsWithoutImplicit = e + 1075 := by
  have hbias : Format.binary64.exponentBias = 1023 := rfl
  rw [hbias]
  exact Int.add_assoc e 1023 52

theorem unpack_pack_overflow (he : 971 < e) : (Float.Model.pack (.finite s m e h)).unpack = .infinity s := by
  refine unpack_pack_large (h := h) ?_
  rw [exponentRange_binary64, biased_binary64]
  omega

theorem unpack_pack_normal (hm : m.log2 = 52) (hlow : -1074 ≤ e) (hhigh : e ≤ 971) :
    (Float.Model.pack (.finite s m e h)).unpack = .finite s m e h := by
  apply unpack_pack_full hm
  · rw [biased_binary64]
    omega
  · rw [exponentRange_binary64, biased_binary64]
    omega

theorem unpack_pack_subnormal (hm : m < 2 ^ 52) (he : e = -1074) :
    (Float.Model.pack (.finite s m e h)).unpack = .finite s m e h := by
  refine unpack_pack_few hm ?_ (by rw [exponentRange_binary64]; decide)
  rw [biased_binary64, he]
  rfl

/-- A finite float has full precision, or the least exponent. -/
theorem canonical_of_unpack {x : Float.Model} (hx : x.unpack = .finite s m e h) :
    m.log2 = 52 ∧ -1074 ≤ e ∧ e ≤ 971 ∨ m < 2 ^ 52 ∧ e = -1074 := by
  have hcanonical := canonical_of_unpack_bits hx
  rw [exponentRange_binary64, biased_binary64] at hcanonical
  exact hcanonical.imp (fun ⟨hm, hlow, hhigh⟩ => ⟨hm, by omega, by omega⟩) (fun ⟨hm, he⟩ => ⟨hm, by omega⟩)

end TrafficPolicy.Number
