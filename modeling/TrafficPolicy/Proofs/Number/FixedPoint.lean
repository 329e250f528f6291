import TrafficPolicy.Number.Numeral
import TrafficPolicy.Proofs.Number.Integers
import TrafficPolicy.Proofs.Number.Values
import TrafficPolicy.Quantity.Amount

/-!
# Fixed-point text of what a float holds

A float is written as the nearest number of millionths. The text is a numeral for exactly these millionths, which is
rounded to a float when it is read.
-/

namespace TrafficPolicy.Number

open Float.Model Float.Model.UnpackedFloat

variable {a : Float} {x : ℚ} {n : ℕ}

/-! ## The value of a float -/

def magnitude : UnpackedFloat → Magnitude
  | .infinity s => .infinite (s == .negative)
  | .notANumber => .undefined
  | .zero s => .finite ⟨s == .negative, 0, -1074⟩
  | .finite s m e _ => .finite ⟨s == .negative, m, e⟩

theorem toNat_unpackMantissa (b : BitVec 64) :
    (@unpackMantissa .binary64 b).toNat = b.toNat % 0x10000000000000 := by
  simp [unpackMantissa]

theorem toNat_unpackExponent (b : BitVec 64) :
    (@unpackExponent .binary64 b).toNat = b.toNat / 0x10000000000000 % 0x800 := by
  simp [unpackExponent, Nat.shiftRight_eq_div_pow]

theorem ofBitVec_unpackSign (b : BitVec 64) :
    (Sign.ofBitVec (@unpackSign .binary64 b) == .negative) = (b.toNat / 0x8000000000000000 == 1) := by
  have hsign : (@unpackSign .binary64 b).toNat = b.toNat / 0x8000000000000000 % 2 := by
    simp [unpackSign, Nat.shiftRight_eq_div_pow]
  have hlt : b.toNat < 2 ^ 64 := b.isLt
  rw [Nat.mod_eq_of_lt (by omega)] at hsign
  rw [← hsign]
  generalize @unpackSign .binary64 b = s
  revert s
  decide

/-- What is read off the bits of a float are its parts. -/
theorem ofFloat_eq (x : Float) : Magnitude.ofFloat x = magnitude (partsOf x) := by
  show _ = magnitude (UnpackedFloat.unpack .binary64 x.toBits.toBitVec)
  have hbits : x.toBits.toNat = x.toBits.toBitVec.toNat := rfl
  rw [Magnitude.ofFloat, hbits]
  generalize x.toBits.toBitVec = b
  have hmax : @unpackExponent .binary64 b = -1#_ ↔ (@unpackExponent .binary64 b).toNat = 2047 :=
    BitVec.toNat_inj.symm
  have hmin : @unpackExponent .binary64 b = 0#_ ↔ (@unpackExponent .binary64 b).toNat = 0 :=
    BitVec.toNat_inj.symm
  have hzero : @unpackMantissa .binary64 b = 0#_ ↔ (@unpackMantissa .binary64 b).toNat = 0 :=
    BitVec.toNat_inj.symm
  have hone := toNat_append_one (@unpackMantissa .binary64 b)
  rw [← toNat_unpackMantissa, ← toNat_unpackExponent, ← ofBitVec_unpackSign]
  simp only [UnpackedFloat.unpack, hmax, hmin, hzero, hone]
  split
  · split <;> rfl
  · split
    · rename_i hleast
      split
      · rename_i hnone
        rw [hnone]
        rfl
      · rw [hleast]
        rfl
    · rfl

/-- Scaling rounds once. -/
theorem scaled_eq (d : Dyadic) (scale : ℕ) : d.scaled scale = halfEven (d.significand * 2 ^ d.exponent * scale) := by
  unfold Dyadic.scaled
  split
  · rename_i e he
    rw [he, Int.ofNat_eq_natCast, zpow_natCast]
    exact_mod_cast (halfEven_natCast _).symm
  · rename_i e he
    have hden : 0 < Nat.pow 2 (e + 1) := Nat.two_pow_pos _
    rw [roundDiv_eq _ hden, he, zpow_negSucc, div_eq_mul_inv, Nat.cast_mul, mul_right_comm]
    congr 3
    exact_mod_cast rfl

/-! ## The text -/

/-- A positive number as the nearest number of millionths. -/
def millionths (x : ℚ) : ℕ := halfEven (x * (10 ^ 6 : ℕ))

theorem fixedText_of_holds (h : Holds a x) (hpos : 0 < x) (hfinite : x < tooLarge) :
    fixedText a = String.ofList (millionthsText (millionths x)) := by
  rcases h.cases with ⟨-, rfl⟩ | ⟨-, rfl⟩ | ⟨m, e, hm, hu, -, rfl⟩
  · exact absurd hfinite (lt_irrefl _)
  · exact absurd hpos (lt_irrefl _)
  · have hmagnitude : Magnitude.ofFloat a = .finite ⟨false, m, e⟩ := by
      rw [ofFloat_eq, hu]
      rfl
    simp only [fixedText, hmagnitude, scaled_eq]
    rfl

theorem fixedText_of_zero (h : Holds a 0) : fixedText a = "0" ∨ fixedText a = "-0" := by
  rcases h.cases with ⟨-, hzero⟩ | ⟨⟨s, hu⟩, -⟩ | ⟨m, e, hm, -, -, hzero⟩
  · exact absurd hzero tooLarge_pos.ne
  · have hmagnitude : Magnitude.ofFloat a = .finite ⟨s == .negative, 0, -1074⟩ := by
      rw [ofFloat_eq, hu]
      rfl
    have hnone : ∀ negative, Dyadic.scaled ⟨negative, 0, -1074⟩ (Nat.pow 10 places) = 0 := by
      intro negative
      rw [scaled_eq]
      simp
    simp only [fixedText, hmagnitude, hnone]
    cases s
    · exact .inr rfl
    · exact .inl rfl
  · have := two_zpow_pos e
    exact absurd hzero (by positivity)

theorem fixedText_of_tooLarge (h : Holds a tooLarge) : fixedText a = "inf" := by
  rcases h.cases with ⟨hu, -⟩ | ⟨-, hzero⟩ | ⟨m, e, hm, -, hc, heq⟩
  · have hmagnitude : Magnitude.ofFloat a = .infinite false := by
      rw [ofFloat_eq, hu]
      rfl
    simp only [fixedText, hmagnitude]
  · exact absurd hzero tooLarge_pos.ne'
  · exact absurd heq hc.lt_tooLarge.ne'

/-! ## Reading the text -/

private theorem digitsValue_append (start : ℕ) (before after : List Char) :
    digitsValue start (before ++ after) = digitsValue (digitsValue start before) after :=
  List.foldl_append

private theorem digitsValue_zeros (start n : ℕ) : digitsValue start (List.replicate n '0') = 10 ^ n * start :=
  Nat.ofDigitChars_replicate_zero

private theorem digitsValue_start (start : ℕ) (digits : List Char) :
    digitsValue start digits = 10 ^ digits.length * start + digitsValue 0 digits :=
  Nat.ofDigitChars_eq_ofDigitChars_zero ..

theorem digitsValue_paddedDigits (width n : ℕ) : digitsValue 0 (paddedDigits width n) = n := by
  rw [paddedDigits, digitsValue_append, digitsValue_zeros, Nat.mul_zero, digitsValue_toDigits]

theorem length_paddedDigits {width : ℕ} (hwidth : 0 < width) (h : n < 10 ^ width) :
    (paddedDigits width n).length = width := by
  have hle := (Nat.length_toDigits_le_iff (b := 10) (n := n) (by decide) hwidth).mpr h
  rw [paddedDigits, List.length_append, List.length_replicate]
  omega

private theorem exists_zeros (cs : List Char) :
    ∃ zeros, cs = Text.dropTailWhile (· == '0') cs ++ List.replicate zeros '0' := by
  refine ⟨(cs.reverse.takeWhile (· == '0')).length, ?_⟩
  have hzeros : (cs.reverse.takeWhile (· == '0')).reverse =
      List.replicate (cs.reverse.takeWhile (· == '0')).length '0' := by
    rw [List.eq_replicate_iff]
    refine ⟨List.length_reverse, fun c hc => ?_⟩
    simpa using List.mem_takeWhile_imp (List.mem_reverse.mp hc)
  rw [← hzeros, Text.dropTailWhile, ← List.reverse_append, List.takeWhile_append_dropWhile, List.reverse_reverse]

/-- The digits after the point are those of a fraction, without zeros at the end. -/
theorem exists_fraction (n : ℕ) : ∃ fraction zeros, fraction.length + zeros = 6 ∧ (∀ c ∈ fraction, c.isDigit) ∧
    10 ^ zeros * digitsValue (n / 10 ^ 6) fraction = n ∧
    millionthsText n = Nat.toDigits 10 (n / 10 ^ 6) ++ if fraction.isEmpty then [] else '.' :: fraction := by
  have hlt : n % 10 ^ 6 < 10 ^ 6 := Nat.mod_lt _ (by decide)
  obtain ⟨zeros, hzeros⟩ := exists_zeros (paddedDigits 6 (n % 10 ^ 6))
  have hlength := congrArg List.length hzeros
  have hvalue := congrArg (digitsValue 0) hzeros
  rw [length_paddedDigits (by decide) hlt, List.length_append, List.length_replicate] at hlength
  rw [digitsValue_paddedDigits, digitsValue_append, digitsValue_zeros] at hvalue
  have hunit : Nat.pow 10 places = 10 ^ 6 := rfl
  have htext : millionthsText n = Nat.toDigits 10 (n / 10 ^ 6) ++
      if (Text.dropTailWhile (· == '0') (paddedDigits 6 (n % 10 ^ 6))).isEmpty then []
      else '.' :: Text.dropTailWhile (· == '0') (paddedDigits 6 (n % 10 ^ 6)) := by
    rw [millionthsText, hunit, places]
  generalize Text.dropTailWhile (· == '0') (paddedDigits 6 (n % 10 ^ 6)) = fraction at *
  have hdigits : ∀ c ∈ fraction, c.isDigit := fun c hc =>
    isDigit_of_mem_paddedDigits (hzeros ▸ List.mem_append_left _ hc)
  refine ⟨fraction, zeros, hlength.symm, hdigits, ?_, htext⟩
  rw [digitsValue_start, Nat.mul_add, ← hvalue, ← Nat.mul_assoc, ← Nat.pow_add, Nat.add_comm zeros, ← hlength]
  exact Nat.div_add_mod n (10 ^ 6)

theorem toLower_of_isDigit {c : Char} (h : c.isDigit) : c.toLower = c := by
  rw [Char.isDigit_iff_toNat] at h
  have hnine : '9'.toNat = 57 := rfl
  have hlow : ¬(65 ≤ c.val ∧ c.val ≤ 90) := by
    rintro ⟨hge, -⟩
    have hle : 65 ≤ c.toNat := hge
    omega
  simp [Char.toLower, hlow]

/-- Digits with a point among them are a numeral. -/
theorem readUnsigned_digits (negative : Bool) {whole fraction : List Char} (hne : whole ≠ [])
    (hwhole : ∀ c ∈ whole, c.isDigit) (hfraction : ∀ c ∈ fraction, c.isDigit) :
    readUnsigned negative (whole ++ if fraction.isEmpty then [] else '.' :: fraction) =
      some (.finite negative (digitsValue (digitsValue 0 whole) fraction) (-fraction.length)) := by
  -- A text that begins with a digit is none of the words.
  have hword : ∀ (tail : List Char) (word : String), (∀ c ∈ word.toList.head?, ¬c.isDigit) →
      String.ofList ((whole ++ tail).map Char.toLower) ≠ word := by
    rintro tail word hletter rfl
    obtain ⟨c, cs, rfl⟩ := List.exists_cons_of_ne_nil hne
    have hc := hwhole c List.mem_cons_self
    refine hletter c ?_ hc
    simp [toLower_of_isDigit hc]
  have hwords : ∀ tail, ¬(String.ofList ((whole ++ tail).map Char.toLower) = "inf" ∨
      String.ofList ((whole ++ tail).map Char.toLower) = "infinity") := fun tail =>
    not_or.mpr ⟨hword tail "inf" (by simp), hword tail "infinity" (by simp)⟩
  rw [readUnsigned, if_neg (hwords _), if_neg (hword _ "nan" (by simp)), List.takeWhile_append_of_pos hwhole,
    List.dropWhile_append_of_pos hwhole]
  cases fraction with
  | nil => simp [hne, readExponent, digitsValue]
  | cons c cs =>
    have htake := List.takeWhile_eq_self_iff.mpr hfraction
    have hdrop := List.dropWhile_eq_nil_iff.mpr hfraction
    simp [htake, hdrop, readExponent]

/-- What is written is a numeral for a number of millionths. -/
theorem read?_millionthsText (n : ℕ) : ∃ digits count zeros : ℕ, count + zeros = 6 ∧ 10 ^ zeros * digits = n ∧
    Numeral.read? (millionthsText n) = some (.finite false digits (-count)) := by
  obtain ⟨fraction, zeros, hlength, hfraction, hvalue, htext⟩ := exists_fraction n
  refine ⟨_, fraction.length, zeros, hlength, hvalue, ?_⟩
  have hwhole : ∀ c ∈ Nat.toDigits 10 (n / 10 ^ 6), c.isDigit := fun _ => isDigit_of_mem_toDigits
  have hne : Nat.toDigits 10 (n / 10 ^ 6) ≠ [] := List.ne_nil_of_length_pos Nat.length_toDigits_pos
  have hread := readUnsigned_digits false hne hwhole hfraction
  rw [digitsValue_toDigits] at hread
  have hhead : ∀ c ∈ (millionthsText n).head?, c.isDigit := by
    intro c hc
    rw [htext, List.head?_append_of_ne_nil _ hne] at hc
    exact hwhole c (List.mem_of_mem_head? hc)
  rw [Numeral.read?, takeSign_of_isDigit hhead, htext]
  exact hread

/-- Millionths that are read are rounded once. -/
theorem holds_toFloat_millionths (digits : ℕ) {count zeros : ℕ} (hcount : count + zeros = 6) :
    Holds (Numeral.toFloat (.finite false digits (-count))) (rounded ((10 ^ zeros * digits : ℕ) / (10 ^ 6 : ℕ))) := by
  have hquotient : ((10 ^ zeros * digits : ℕ) : ℚ) / (10 ^ 6 : ℕ) = digits / (10 ^ count : ℕ) := by
    rw [← hcount, pow_add, mul_comm (10 ^ count)]
    push_cast
    exact mul_div_mul_left _ _ (by positivity)
  rw [hquotient, Numeral.toFloat, if_neg Bool.false_ne_true]
  rcases Nat.eq_zero_or_pos count with rfl | hpos
  · have hwhole : Holds (Float.ofScientific digits false 0) (rounded digits) := holds_ofNat digits
    simpa using hwhole
  · have hneg : decide (-(count : ℤ) < 0) = true := by simpa using hpos
    rw [hneg, Int.natAbs_neg, Int.natAbs_natCast]
    exact holds_ofScientific digits hpos (by omega)

/-- What is written as millionths is read as an amount. -/
theorem readAmount_millionthsText (n : ℕ) (h : rounded (n / (10 ^ 6 : ℕ)) < tooLarge) :
    ∃ amount, readAmount (millionthsText n) = .ok amount ∧ Holds amount (rounded (n / (10 ^ 6 : ℕ))) := by
  obtain ⟨digits, count, zeros, hcount, rfl, hread⟩ := read?_millionthsText n
  have hholds := holds_toFloat_millionths digits hcount
  have hfinite := hholds.isFinite_iff.mpr h
  have hnonneg : ¬Numeral.toFloat (.finite false digits (-count)) < 0.0 := by
    rw [hholds.lt_iff (holds_zero (a := 0.0) rfl)]
    exact not_lt.mpr (rounded_nonneg _)
  have hempty : (millionthsText (10 ^ zeros * digits)).isEmpty = false := by
    simp [millionthsText]
  refine ⟨_, ?_, hholds⟩
  simp only [readAmount, hempty, hread, hfinite, hnonneg]
  rfl

end TrafficPolicy.Number
