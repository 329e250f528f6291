import Mathlib.Order.Bounds.Defs
import TrafficPolicy.Proofs.Number.Checked
import TrafficPolicy.Proofs.Stream.EvenPieces

/-!
# Boundaries in words

A machine counts bytes in words of 64 bits and works out a boundary in twice as many. No step on the way takes more,
and the boundary, the first one behind the bytes written, fits into a word again.
-/

namespace TrafficPolicy.Stream.Framer

open Number

/-- The number of the first piece that ends behind the bytes written, if each step fits. -/
def pieceNumber? (written total count : UInt64) : Option (BitVec 128) := do
  let next ← add? (widen written) 1
  let scaled ← mul? next (widen count)
  ceilDiv? scaled (widen total)

def boundary? (written total count : UInt64) : Option UInt64 := do
  let number ← pieceNumber? written total count
  let product ← mul? (widen total) number
  let quotient ← div? product (widen count)
  return narrow quotient

/-! ## The first boundary behind -/

/-- A boundary is the least of all ends of pieces that are behind the bytes written. -/
theorem isLeast_boundary {written total count : Nat} (h : written < total) (hc : 0 < count) :
    IsLeast {n | written < n ∧ ∃ k, n = total * k / count} (boundary written total count) := by
  refine ⟨⟨lt_boundary h hc, pieceNumber written total count, rfl⟩, ?_⟩
  rintro n ⟨hn, k, rfl⟩
  have hle : pieceNumber written total count ≤ k := (pieceNumber_le_iff (by omega) hc).mpr hn
  exact Nat.div_le_div_right (Nat.mul_le_mul_left total hle)

/-! ## Each step fits -/

variable {written total count : UInt64}

theorem exists_pieceNumber? (h : written < total) (hc : 1 ≤ count) :
    ∃ number, pieceNumber? written total count = some number ∧
      number.toNat = pieceNumber written.toNat total.toNat count.toNat := by
  rw [UInt64.lt_iff_toNat_lt] at h
  have hle := pieceNumber_le h (UInt64.le_iff_toNat_le.mp hc)
  have htotal := total.toNat_lt
  have hcount := count.toNat_lt
  obtain ⟨next, hnext⟩ : ∃ next : BitVec 128, next.toNat = written.toNat + 1 := exists_toNat (by omega)
  obtain ⟨scaled, hscaled⟩ : ∃ scaled : BitVec 128, scaled.toNat = (written.toNat + 1) * count.toNat :=
    exists_toNat (mul_lt_of_lt (by omega) hcount)
  obtain ⟨number, hnumber⟩ : ∃ number : BitVec 128,
      number.toNat = pieceNumber written.toNat total.toNat count.toNat := exists_toNat (by omega)
  have hadd : add? (widen written) 1 = some next := by
    rw [add?_eq_some_iff, hnext, toNat_widen]
    rfl
  have hmul : mul? next (widen count) = some scaled := by
    rw [mul?_eq_some_iff, hscaled, hnext, toNat_widen]
  have hdiv : ceilDiv? scaled (widen total) = some number := by
    rw [ceilDiv?_eq_some_iff (by rw [toNat_widen]; omega), hnumber, hscaled, toNat_widen, pieceNumber]
  refine ⟨number, ?_, hnumber⟩
  simp only [pieceNumber?, hadd, hmul, hdiv, Option.bind_eq_bind, Option.bind_some]

theorem exists_boundary? (h : written < total) (hc : 1 ≤ count) :
    ∃ next, boundary? written total count = some next ∧
      next.toNat = boundary written.toNat total.toNat count.toNat := by
  obtain ⟨number, hnumber, hvalue⟩ := exists_pieceNumber? h hc
  rw [UInt64.lt_iff_toNat_lt] at h
  rw [UInt64.le_iff_toNat_le] at hc
  have hle := pieceNumber_le h hc
  have hend := boundary_le count.toNat h
  have htotal := total.toNat_lt
  have hcount := count.toNat_lt
  obtain ⟨product, hproduct⟩ : ∃ product : BitVec 128, product.toNat = total.toNat * number.toNat :=
    exists_toNat (mul_lt_of_lt htotal (by omega))
  obtain ⟨quotient, hquotient⟩ : ∃ quotient : BitVec 128,
      quotient.toNat = boundary written.toNat total.toNat count.toNat := exists_toNat (by omega)
  have hmul : mul? (widen total) number = some product := by
    rw [mul?_eq_some_iff, hproduct, toNat_widen]
  have hdiv : div? product (widen count) = some quotient := by
    rw [div?_eq_some_iff (by rwa [toNat_widen]), hquotient, hproduct, hvalue, toNat_widen, boundary]
  refine ⟨narrow quotient, ?_, ?_⟩
  · simp only [boundary?, hnumber, hmul, hdiv, Option.bind_eq_bind, Option.bind_some]
    rfl
  · rw [toNat_narrow (by omega), hquotient]

/-- In words each step from the bytes written to a boundary fits, and gives the number that it gives without a limit.
The number of the piece is no more than the count; its end, from which nothing is lost when it becomes a word again, is
the least end of a piece that is behind the bytes written, and not behind the end of the stream. -/
theorem boundary?_isLeast (h : written < total) (hc : 1 ≤ count) :
    ∃ number next, pieceNumber? written total count = some number ∧ boundary? written total count = some next ∧
      number.toNat = pieceNumber written.toNat total.toNat count.toNat ∧ number.toNat ≤ count.toNat ∧
      next.toNat = boundary written.toNat total.toNat count.toNat ∧
      next.toNat = total.toNat * number.toNat / count.toNat ∧
      IsLeast {n | written.toNat < n ∧ ∃ k, n = total.toNat * k / count.toNat} next.toNat ∧
      written < next ∧ next ≤ total := by
  obtain ⟨number, hnumber, hnumberValue⟩ := exists_pieceNumber? h hc
  obtain ⟨next, hnext, hnextValue⟩ := exists_boundary? h hc
  refine ⟨number, next, hnumber, hnext, ?_⟩
  simp only [UInt64.lt_iff_toNat_lt, UInt64.le_iff_toNat_le] at h hc ⊢
  rw [hnumberValue, hnextValue]
  exact ⟨rfl, pieceNumber_le h hc, rfl, rfl, isLeast_boundary h hc, lt_boundary h hc, boundary_le _ h⟩

/-- At the end of the longest stream, cut into the greatest number of pieces, the last byte is the last piece. -/
theorem boundary?_isLeast_last :
    boundary? 0xFFFFFFFFFFFFFFFE 0xFFFFFFFFFFFFFFFF 0xFFFFFFFFFFFFFFFF = some 0xFFFFFFFFFFFFFFFF := by
  obtain ⟨-, next, -, hnext, -, -, -, -, -, hlower, hupper⟩ :=
    boundary?_isLeast (show (0xFFFFFFFFFFFFFFFE : UInt64) < 0xFFFFFFFFFFFFFFFF by decide)
      (show 1 ≤ (0xFFFFFFFFFFFFFFFF : UInt64) by decide)
  have hlast : next = 0xFFFFFFFFFFFFFFFF := by
    rw [UInt64.lt_iff_toNat_lt] at hlower
    rw [UInt64.le_iff_toNat_le] at hupper
    exact UInt64.toNat_inj.mp (Nat.le_antisymm hupper hlower)
  rw [hnext, hlast]

end TrafficPolicy.Stream.Framer
