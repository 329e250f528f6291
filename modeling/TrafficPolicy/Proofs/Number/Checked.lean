import Mathlib.Algebra.Group.Nat.Defs

/-!
# Arithmetic that has to fit

Numbers of a fixed number of bits. A step gives nothing if its result takes more bits, or if it divides by zero; what
it gives otherwise is the result on natural numbers. A word of 64 bits can be widened for some steps and narrowed
again, which drops the upper half of the bits.
-/

namespace TrafficPolicy.Number

variable {bits : Nat} {x y z : BitVec bits}

def add? (x y : BitVec bits) : Option (BitVec bits) :=
  if x.uaddOverflow y then none else some (x + y)

def mul? (x y : BitVec bits) : Option (BitVec bits) :=
  if x.umulOverflow y then none else some (x * y)

def div? (x y : BitVec bits) : Option (BitVec bits) :=
  if y = 0 then none else some (x / y)

def ceilDiv? (x y : BitVec bits) : Option (BitVec bits) := do
  let quotient ← div? x y
  if x % y = 0 then return quotient
  add? quotient 1

def widen (n : UInt64) : BitVec 128 := n.toBitVec.setWidth 128

/-- The lower half of the bits, as a word. -/
def narrow (n : BitVec 128) : UInt64 := ⟨n.setWidth 64⟩

theorem exists_toNat {n : Nat} (h : n < 2 ^ bits) : ∃ x : BitVec bits, x.toNat = n :=
  ⟨BitVec.ofNat bits n, Nat.mod_eq_of_lt h⟩

theorem toNat_widen (n : UInt64) : (widen n).toNat = n.toNat := by
  have hn := n.toNat_lt
  rw [widen, BitVec.toNat_setWidth, UInt64.toNat_toBitVec, Nat.mod_eq_of_lt (by omega)]

theorem toNat_narrow {n : BitVec 128} (h : n.toNat < 2 ^ 64) : (narrow n).toNat = n.toNat := by
  show (n.setWidth 64).toNat = n.toNat
  rw [BitVec.toNat_setWidth, Nat.mod_eq_of_lt h]

/-- A product of words always fits into twice as many bits. -/
theorem mul_lt_of_lt {m n : Nat} (hm : m < 2 ^ 64) (hn : n < 2 ^ 64) : m * n < 2 ^ 128 :=
  Nat.lt_of_lt_of_eq (Nat.mul_lt_mul'' hm hn) (by decide)

/-- What wraps around is the number itself exactly if the number fits. -/
theorem unwrapped_eq_some_iff {n : Nat} (hx : x.toNat = n % 2 ^ bits) :
    (if 2 ^ bits ≤ n then none else some x) = some z ↔ z.toNat = n := by
  have hz := z.isLt
  split
  · simp only [reduceCtorEq, false_iff]
    omega
  · rename_i hfits
    rw [Option.some_inj, ← BitVec.toNat_inj, hx, Nat.mod_eq_of_lt (Nat.lt_of_not_le hfits), eq_comm]

theorem add?_eq_some_iff : add? x y = some z ↔ z.toNat = x.toNat + y.toNat := by
  rw [← unwrapped_eq_some_iff (BitVec.toNat_add x y)]
  simp only [add?, BitVec.uaddOverflow, ge_iff_le, decide_eq_true_eq]

theorem mul?_eq_some_iff : mul? x y = some z ↔ z.toNat = x.toNat * y.toNat := by
  rw [← unwrapped_eq_some_iff (BitVec.toNat_mul x y)]
  simp only [mul?, BitVec.umulOverflow, ge_iff_le, decide_eq_true_eq]

theorem div?_eq_some_iff (hy : 0 < y.toNat) : div? x y = some z ↔ z.toNat = x.toNat / y.toNat := by
  have hne : y ≠ 0 := by
    rintro rfl
    simp at hy
  rw [div?, if_neg hne, Option.some_inj, ← BitVec.toNat_inj, BitVec.toNat_udiv, eq_comm]

theorem add_pred_div {d : Nat} (hd : 0 < d) (n : Nat) :
    (n + (d - 1)) / d = if n % d = 0 then n / d else n / d + 1 := by
  have hdiv := Nat.div_add_mod' n d
  have hmod := Nat.mod_lt n hd
  have hnext := Nat.add_one_mul (n / d) d
  split
  · exact Nat.div_eq_of_lt_le (by omega) (by omega)
  · have hafter := Nat.add_one_mul (n / d + 1) d
    exact Nat.div_eq_of_lt_le (by omega) (by omega)

theorem ceilDiv?_eq_some_iff (hy : 0 < y.toNat) :
    ceilDiv? x y = some z ↔ z.toNat = (x.toNat + (y.toNat - 1)) / y.toNat := by
  have hquotient : div? x y = some (x / y) := (div?_eq_some_iff hy).mpr BitVec.toNat_udiv
  have hexact : x % y = 0 ↔ x.toNat % y.toNat = 0 := by
    rw [← BitVec.toNat_inj, BitVec.toNat_umod]
    rfl
  have hone : (1 : BitVec bits).toNat = 1 := Nat.mod_eq_of_lt (Nat.lt_of_le_of_lt hy y.isLt)
  rw [ceilDiv?, hquotient, Option.bind_eq_bind, Option.bind_some, add_pred_div hy]
  simp only [hexact]
  split
  · rw [← div?_eq_some_iff hy, hquotient]
    rfl
  · rw [add?_eq_some_iff, hone, BitVec.toNat_udiv]

end TrafficPolicy.Number
