import TrafficPolicy.Proofs.Text.Words

/-!
# Lines of a text

Cutting at a separator cuts each of two texts on its own if there is a separator between them. A command that
is written neither begins nor ends with a blank, so that as a line it is not trimmed.
-/

namespace TrafficPolicy.Text

variable {sep c : Char} {cs piece : List Char}

theorem splitOn_append_cons (sep : Char) (cs rest : List Char) :
    splitOn sep (cs ++ sep :: rest) = splitOn sep cs ++ splitOn sep rest := by
  induction cs with
  | nil => simp [splitOn]
  | cons c cs ih =>
    rw [List.cons_append]
    by_cases hc : c = sep
    · simp only [splitOn, if_pos hc, ih, List.cons_append]
    · obtain ⟨piece, pieces, hpieces⟩ := List.exists_cons_of_ne_nil (splitOn_ne_nil sep cs)
      rw [hpieces] at ih
      simp only [splitOn, if_neg hc, ih, hpieces, List.cons_append]

/-- What stands in front of the first separator belongs to the first piece. -/
theorem splitOn_append_left {pieces : List (List Char)} {before : List Char} (h : sep ∉ before)
    (hpieces : splitOn sep cs = piece :: pieces) : splitOn sep (before ++ cs) = (before ++ piece) :: pieces := by
  induction before with
  | nil => exact hpieces
  | cons c before ih =>
    simp only [List.mem_cons, not_or] at h
    rw [List.cons_append, splitOn, if_neg (Ne.symm h.1), ih h.2]
    rfl

theorem not_mem_of_mem_splitOn (h : piece ∈ splitOn sep cs) : sep ∉ piece := by
  induction cs generalizing piece with
  | nil =>
    obtain rfl := List.mem_singleton.mp h
    exact List.not_mem_nil
  | cons c cs ih =>
    by_cases hc : c = sep
    · rw [splitOn, if_pos hc] at h
      rcases List.mem_cons.mp h with rfl | h
      · exact List.not_mem_nil
      · exact ih h
    · obtain ⟨first, pieces, hpieces⟩ := List.exists_cons_of_ne_nil (splitOn_ne_nil sep cs)
      rw [splitOn, if_neg hc, hpieces] at h
      rw [hpieces] at ih
      rcases List.mem_cons.mp h with rfl | h
      · rw [List.mem_cons, not_or]
        exact ⟨Ne.symm hc, ih List.mem_cons_self⟩
      · exact ih (List.mem_cons_of_mem _ h)

theorem mem_of_mem_trim (h : c ∈ trim cs) : c ∈ cs := by
  rw [trim, dropTailWhile, List.mem_reverse] at h
  have hmem := (List.dropWhile_suffix isBlank).subset h
  exact (List.dropWhile_suffix isBlank).subset (List.mem_reverse.mp hmem)

theorem dropTailWhile_cons {p : Char → Bool} (hc : p c = false) :
    dropTailWhile p (c :: cs) = c :: dropTailWhile p cs := by
  have hone : [c].dropWhile p = [c] := List.dropWhile_cons_of_neg (by simp [hc])
  rw [dropTailWhile, dropTailWhile, List.reverse_cons, List.dropWhile_append]
  split
  · rename_i hempty
    rw [hone, List.isEmpty_iff.mp hempty]
    rfl
  · rw [List.reverse_append]
    rfl

theorem trim_cons (hc : isBlank c = false) : trim (c :: cs) = c :: dropTailWhile isBlank cs := by
  rw [trim, List.dropWhile_cons_of_neg (by simp [hc]), dropTailWhile_cons hc]

/-! ## Commands as lines -/

/-- A text that neither begins nor ends with a blank. -/
structure Edged (cs : List Char) : Prop where
  nonempty : cs ≠ []
  head : ∀ c ∈ cs.head?, isBlank c = false
  last : ∀ c ∈ cs.getLast?, isBlank c = false

theorem Edged.trim_eq (h : Edged cs) : trim cs = cs := by
  rw [trim, dropWhile_eq_self h.head]
  exact dropTailWhile_eq_self h.last

theorem Edged.append {between : List Char} (h : Edged cs) (hpiece : Edged piece) :
    Edged (cs ++ between ++ piece) where
  nonempty := by simp [h.nonempty]
  head := by
    rw [List.append_assoc, List.head?_append_of_ne_nil _ h.nonempty]
    exact h.head
  last := by
    rw [List.getLast?_append_of_ne_nil _ hpiece.nonempty]
    exact hpiece.last

theorem Edged.append_right {rest : List Char} (h : Edged cs) (hlast : ∀ c ∈ rest.getLast?, isBlank c = false) :
    Edged (cs ++ rest) where
  nonempty := by simp [h.nonempty]
  head := by
    rw [List.head?_append_of_ne_nil _ h.nonempty]
    exact h.head
  last := by
    cases rest with
    | nil =>
      rw [List.append_nil]
      exact h.last
    | cons c rest =>
      rw [List.getLast?_append_of_ne_nil _ (List.cons_ne_nil _ _)]
      exact hlast

theorem edged_quote (word : String) : Edged (quote word).toList := by
  unfold quote
  split
  · have hmark : Edged "\"".toList := by
      refine ⟨by decide, ?_, ?_⟩
      · rintro _ ⟨⟩
        rfl
      · rintro _ ⟨⟩
        rfl
    rw [String.toList_append, String.toList_append]
    exact hmark.append hmark
  · rename_i hquote
    simp only [needsQuotes, Bool.or_eq_true, not_or, Bool.not_eq_true, List.any_eq_false] at hquote
    obtain ⟨hne, hblank⟩ := hquote
    exact ⟨by simpa using hne, fun c hc => hblank c (List.mem_of_mem_head? hc),
      fun c hc => hblank c (List.mem_of_mem_getLast? hc)⟩

theorem edged_line {ws : List String} (h : ws ≠ []) : Edged (line ws).toList := by
  induction ws with
  | nil => exact absurd rfl h
  | cons w ws ih =>
    cases ws with
    | nil =>
      rw [line_singleton]
      exact edged_quote w
    | cons v ws =>
      have hline : line (w :: v :: ws) = quote w ++ " " ++ line (v :: ws) := by
        rw [← List.singleton_append, line_append (List.cons_ne_nil _ _) (List.cons_ne_nil _ _), line_singleton]
      rw [hline, String.toList_append, String.toList_append]
      exact (edged_quote w).append (ih (List.cons_ne_nil _ _))

theorem head?_line {w : String} (hw : Bare w) (ws : List String) : (line (w :: ws)).toList.head? = w.toList.head? := by
  cases ws with
  | nil => rw [line_singleton, hw.quote_eq]
  | cons v ws =>
    rw [hw.line_cons (List.cons_ne_nil _ _), String.toList_append, String.toList_append, List.append_assoc,
      List.head?_append_of_ne_nil _ hw.nonempty]

end TrafficPolicy.Text
