import TrafficPolicy.Proofs.Number.Integers
import TrafficPolicy.Proofs.Text.Words
import TrafficPolicy.Quantity.Duration
import TrafficPolicy.Quantity.Rate

/-!
# Quantities as words

Numbers, durations, rates and lists of sizes are written without blanks and quotes, so that each is one word
of a command.
-/

namespace TrafficPolicy

open Text

namespace Number

private theorem unbroken_of_isDigit {c : Char} (h : c.isDigit) : isBlank c = false ∧ c ≠ '"' := by
  refine ⟨isBlank_of_isDigit h, ?_⟩
  rintro rfl
  exact absurd h (by decide)

theorem toDigits_ne_nil (n : Nat) : Nat.toDigits 10 n ≠ [] := by
  intro h
  have hlength := Nat.length_toDigits_pos (b := 10) (n := n)
  rw [h] at hlength
  cases hlength

theorem bare_nat (n : Nat) : Bare (toString n) := by
  rw [Nat.toString_eq_repr]
  constructor
  · rw [Nat.toList_repr]
    exact toDigits_ne_nil n
  · intro c hc
    rw [Nat.toList_repr] at hc
    exact unbroken_of_isDigit (isDigit_of_mem_toDigits hc)

theorem bare_int (n : Int) : Bare (toString n) where
  nonempty := by
    cases n with
    | ofNat n => exact (bare_nat n).nonempty
    | negSucc n => simp [toString, Int.repr]
  unbroken := by
    intro c hc
    rcases mem_intText hc with rfl | hc
    · decide
    · exact unbroken_of_isDigit hc

theorem mem_millionthsText {n : Nat} {c : Char} (h : c ∈ millionthsText n) : c.isDigit ∨ c = '.' := by
  unfold millionthsText at h
  rcases List.mem_append.mp h with h | h
  · exact .inl (isDigit_of_mem_toDigits h)
  · split at h
    · cases h
    · rcases List.mem_cons.mp h with rfl | h
      · exact .inr rfl
      · refine .inl (@isDigit_of_mem_paddedDigits places (n % Nat.pow 10 places) _ ?_)
        rw [dropTailWhile, List.mem_reverse] at h
        exact List.mem_reverse.mp ((List.dropWhile_suffix _).subset h)

private theorem bare_millionthsText (n : Nat) : Bare (String.ofList (millionthsText n)) where
  nonempty := by simp [millionthsText]
  unbroken := by
    intro c hc
    rw [String.toList_ofList] at hc
    rcases mem_millionthsText hc with hc | rfl
    · exact unbroken_of_isDigit hc
    · decide

theorem bare_fixedText (x : Float) : Bare (fixedText x) := by
  unfold fixedText
  split
  · decide
  · decide
  · decide
  · dsimp only
    split
    · exact .append (by decide) (bare_millionthsText _)
    · exact bare_millionthsText _

end Number

namespace Duration

theorem text_eq_append (seconds : Float) :
    ∃ figure unit, text seconds = figure ++ unit ∧ Bare figure ∧ unit ∈ ["h", "m", "s", "ms"] := by
  unfold text
  split
  · rename_i name factor hfind
    refine ⟨_, name, rfl, Number.bare_fixedText _, ?_⟩
    have hmem := List.mem_of_find?_eq_some hfind
    simp only [units, List.mem_cons, Prod.mk.injEq, List.not_mem_nil, or_false] at hmem
    rcases hmem with ⟨rfl, -⟩ | ⟨rfl, -⟩ | ⟨rfl, -⟩ <;> decide
  · exact ⟨_, "ms", rfl, Number.bare_fixedText _, by decide⟩

theorem bare_text (seconds : Float) : Bare (text seconds) := by
  obtain ⟨figure, unit, htext, hfigure, hunit⟩ := text_eq_append seconds
  rw [htext]
  refine hfigure.append ?_
  have hall : ∀ unit ∈ ["h", "m", "s", "ms"], Bare unit := by decide
  exact hall unit hunit

/-- No duration is taken for a word of the delay family. -/
theorem text_ne_of_getLast {seconds : Float} {word : String}
    (h : word.toList.getLast? ∉ [some 'h', some 'm', some 's']) : text seconds ≠ word := by
  rintro rfl
  obtain ⟨figure, unit, htext, -, hunit⟩ := text_eq_append seconds
  have hall : ∀ unit ∈ ["h", "m", "s", "ms"], unit.toList.getLast? ∈ [some 'h', some 'm', some 's'] := by decide
  have hlast := hall unit hunit
  have hsome : unit.toList.getLast?.or figure.toList.getLast? = unit.toList.getLast? := by
    cases hunit : unit.toList.getLast? with
    | none => simp [hunit] at hlast
    | some c => rfl
  rw [htext, String.toList_append, List.getLast?_append, hsome] at h
  exact h hlast

end Duration

theorem Rate.bare_text (rate : Float) : Bare (Rate.text rate) := by
  unfold Rate.text
  split
  · rename_i name factor hfind
    have hall : ∀ name ∈ ["GB", "MB", "KB"], Bare name := by decide
    have hmem := List.mem_of_find?_eq_some hfind
    refine .append ((Number.bare_fixedText _).append (hall name ?_)) (by decide)
    simp only [units, List.mem_cons, Prod.mk.injEq, List.not_mem_nil, or_false] at hmem
    rcases hmem with ⟨rfl, -⟩ | ⟨rfl, -⟩ | ⟨rfl, -⟩ <;> decide
  · exact (Number.bare_fixedText _).append (by decide)

theorem PieceSizes.bare_text {sizes : List Int} (hne : sizes ≠ []) : Bare (text sizes) :=
  .joined ',' (by simpa using hne) (List.forall_mem_map.mpr fun size _ => Number.bare_int size) (by decide)

end TrafficPolicy
