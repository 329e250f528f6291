import TrafficPolicy.Number.Fixed
import TrafficPolicy.Number.Numeral
import TrafficPolicy.Proofs.Text.Blank
import TrafficPolicy.Quantity.PieceSizes

/-!
# Integers that are read as they were written

A whole number is written in decimal digits. It is read again if it fits into a word, as all are that have been
read.
-/

namespace TrafficPolicy

namespace Number

theorem digitsValue_toDigits (n : Nat) : digitsValue 0 (Nat.toDigits 10 n) = n :=
  Nat.ofDigitChars_ten_toDigits

theorem isDigit_of_mem_toDigits {n : Nat} {c : Char} (h : c ∈ Nat.toDigits 10 n) : c.isDigit :=
  Nat.isDigit_of_mem_toDigits (by decide) (by decide) h

theorem isDigit_of_mem_paddedDigits {width n : Nat} {c : Char} (h : c ∈ paddedDigits width n) : c.isDigit := by
  rcases List.mem_append.mp h with h | h
  · obtain rfl := List.eq_of_mem_replicate h
    rfl
  · exact isDigit_of_mem_toDigits h

theorem takeSign_of_isDigit {cs : List Char} (h : ∀ c ∈ cs.head?, c.isDigit) : takeSign cs = (false, cs) := by
  cases cs with
  | nil => rfl
  | cons c cs =>
    have hc := h c rfl
    unfold takeSign
    split
    · rename_i heq
      cases heq
      exact absurd hc (by decide)
    · rename_i heq
      cases heq
      exact absurd hc (by decide)
    · rfl

private theorem all_toDigits (n : Nat) : (Nat.toDigits 10 n).all Char.isDigit :=
  List.all_eq_true.mpr fun _ => isDigit_of_mem_toDigits

theorem readInteger?_nat {n : Nat} (h : fitsWord n) : readInteger? (toString n).toList = some (n : Int) := by
  simp only [Nat.toString_eq_repr, Nat.toList_repr, readInteger?,
    takeSign_of_isDigit fun _ hc => isDigit_of_mem_toDigits (List.mem_of_mem_head? hc), all_toDigits,
    digitsValue_toDigits]
  simp [h]

theorem readInteger?_int {n : Int} (h : fitsWord n) : readInteger? (toString n).toList = some n := by
  cases n with
  | ofNat n => exact readInteger?_nat h
  | negSucc n =>
    have hsign : takeSign (toString (Int.negSucc n)).toList = (true, Nat.toDigits 10 (n + 1)) := by
      simp [toString, Int.repr, takeSign]
    have hempty : (Nat.toDigits 10 (n + 1)).isEmpty = false := by simp
    have hvalue : -((n + 1 : Nat) : Int) = Int.negSucc n := rfl
    simp only [readInteger?, hsign, hempty, all_toDigits, digitsValue_toDigits, hvalue, h, if_true,
      Bool.not_true, Bool.or_self, Bool.false_eq_true, if_false]

theorem fitsWord_of_readInteger? {cs : List Char} {n : Int} (h : readInteger? cs = some n) : fitsWord n := by
  simp only [readInteger?] at h
  obtain ⟨-, h⟩ := Option.ite_none_left_eq_some.mp h
  obtain ⟨hfits, h⟩ := Option.ite_none_right_eq_some.mp h
  obtain rfl := Option.some.inj h
  exact hfits

theorem mem_intText {n : Int} {c : Char} (h : c ∈ (toString n).toList) : c = '-' ∨ c.isDigit := by
  cases n with
  | ofNat n =>
    right
    exact isDigit_of_mem_toDigits (n := n) (by simpa [toString, Int.repr] using h)
  | negSucc n =>
    have h : c = '-' ∨ c ∈ Nat.toDigits 10 (n + 1) := by simpa [toString, Int.repr] using h
    exact h.imp id isDigit_of_mem_toDigits

theorem isBlank_of_isDigit {c : Char} (h : c.isDigit) : Text.isBlank c = false := by
  rw [Char.isDigit_iff_toNat] at h
  have hzero : '0'.toNat = 48 := rfl
  have hnine : '9'.toNat = 57 := rfl
  exact Text.isBlank_of_visible (by omega) (by omega)

end Number

namespace PieceSizes

private theorem ordinary_of_mem_intText {n : Int} {c : Char} (h : c ∈ (toString n).toList) :
    Text.isBlank c = false ∧ c ≠ ',' := by
  rcases Number.mem_intText h with rfl | hc
  · decide
  · refine ⟨Number.isBlank_of_isDigit hc, ?_⟩
    rintro rfl
    exact absurd hc (by decide)

private theorem readItem_intText {size : Int} (h : Number.fitsWord size) :
    readItem (toString size).toList = .ok size := by
  have htrim : Text.trim (toString size).toList = (toString size).toList :=
    Text.trim_eq_self fun c hc => (ordinary_of_mem_intText hc).1
  simp only [readItem, htrim, Number.readInteger?_int h]

private theorem mapM_readItem {sizes : List Int} (h : ∀ size ∈ sizes, Number.fitsWord size) :
    (sizes.map fun size => (toString size).toList).mapM readItem = .ok sizes := by
  rw [Text.mapM_eq_ok_iff, List.forall₂_map_left_iff, List.forall₂_same]
  exact fun size hsize => readItem_intText (h size hsize)

/-- Sizes that have been read can be written. -/
theorem fitsWord_of_read {input : String} {sizes : List Int} (h : read input = .ok sizes) :
    sizes ≠ [] ∧ ∀ size ∈ sizes, Number.fitsWord size := by
  unfold read at h
  dsimp only at h
  split at h
  · cases h
  · constructor
    · rintro rfl
      exact Text.splitOn_ne_nil _ _ (List.forall₂_nil_right_iff.mp (Text.mapM_eq_ok_iff.mp h))
    · intro size hsize
      obtain ⟨item, -, hitem⟩ := Text.exists_item_of_mem h hsize
      simp only [readItem] at hitem
      split at hitem
      · rename_i hinteger
        cases hitem
        exact Number.fitsWord_of_readInteger? hinteger
      · cases hitem

theorem read_text {sizes : List Int} (hne : sizes ≠ []) (hfits : ∀ size ∈ sizes, Number.fitsWord size) :
    read (text sizes) = .ok sizes := by
  have hsplit : Text.splitOn ',' (text sizes).toList = sizes.map fun size => (toString size).toList :=
    Text.splitOn_joinWith hne fun _ _ hcomma => (ordinary_of_mem_intText hcomma).2 rfl
  have htrim : Text.trim (text sizes).toList = (text sizes).toList := by
    refine Text.trim_eq_self fun c hc => ?_
    rcases Text.mem_joinWith hc with hc | ⟨piece, hpiece, hc⟩
    · obtain rfl := List.mem_singleton.mp (show c ∈ [','] from hc)
      decide
    · obtain ⟨size, -, rfl⟩ := List.mem_map.mp hpiece
      exact (ordinary_of_mem_intText hc).1
  have hempty : (text sizes).toList ≠ [] := by
    intro h
    have hread := mapM_readItem hfits
    rw [← hsplit, h] at hread
    cases hread
  simp only [read, htrim, hsplit, mapM_readItem hfits]
  simp [hempty]

end PieceSizes

end TrafficPolicy
