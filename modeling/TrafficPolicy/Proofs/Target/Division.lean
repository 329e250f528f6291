import Mathlib.Data.List.Forall2
import TrafficPolicy.Proofs.Text.Lines
import TrafficPolicy.Target.Glob

/-!
# Domains divided among the labels of a pattern

A domain matches a pattern with a star if its labels can be divided, in order, into one group for each label
of the pattern. Which groups a label takes depends on whether it is just a star and where it stands.
-/

namespace TrafficPolicy

namespace Text

variable {sep : Char} {text : List Char} {pieces : List (List Char)}

theorem flatMap_splitOn (sep : Char) (text : List Char) : (splitOn sep text).flatMap (· ++ [sep]) = text ++ [sep] := by
  induction text with
  | nil => rfl
  | cons c text ih =>
    by_cases hc : c = sep
    · rw [splitOn, if_pos hc, List.flatMap_cons, ih, List.nil_append, List.singleton_append, List.cons_append, hc]
    · obtain ⟨piece, pieces, hpieces⟩ := List.exists_cons_of_ne_nil (splitOn_ne_nil sep text)
      rw [hpieces, List.flatMap_cons] at ih
      rw [splitOn, if_neg hc, hpieces, List.flatMap_cons, List.cons_append, List.cons_append, ih, List.cons_append]

theorem exists_flatMap_eq_append (sep : Char) (h : pieces ≠ []) : ∃ text, pieces.flatMap (· ++ [sep]) = text ++ [sep] := by
  obtain ⟨front, last, rfl⟩ := (List.eq_nil_or_concat' pieces).resolve_left h
  exact ⟨front.flatMap (· ++ [sep]) ++ last, by simp⟩

/-- The pieces of a text are the texts without a separator that give the text once a separator ends each of them. -/
theorem splitOn_eq_iff :
    splitOn sep text = pieces ↔ (∀ piece ∈ pieces, sep ∉ piece) ∧ text ++ [sep] = pieces.flatMap (· ++ [sep]) := by
  constructor
  · rintro rfl
    exact ⟨fun _ => not_mem_of_mem_splitOn, (flatMap_splitOn sep text).symm⟩
  · rintro ⟨hpieces, htext⟩
    induction pieces generalizing text with
    | nil => simp at htext
    | cons piece pieces ih =>
      have hpiece := hpieces piece List.mem_cons_self
      rw [List.flatMap_cons] at htext
      by_cases hne : pieces = []
      · rw [hne, List.flatMap_nil, List.append_nil] at htext
        rw [List.append_cancel_right htext, splitOn_of_not_mem hpiece, hne]
      · obtain ⟨rest, hrest⟩ := exists_flatMap_eq_append sep hne
        rw [hrest, ← List.append_assoc] at htext
        rw [List.append_cancel_right htext, List.append_assoc, List.singleton_append, splitOn_append hpiece,
          ih (fun piece hmem => hpieces piece (List.mem_cons_of_mem _ hmem)) hrest.symm]

/-- What is joined again after each piece has been changed character by character, is the text with each separator
replaced. -/
theorem intercalate_splitOn (between : List Char) (f : Char → List Char) :
    between.intercalate ((splitOn sep text).map (List.flatMap f)) =
      text.flatMap fun c => if c = sep then between else f c := by
  induction text with
  | nil => rfl
  | cons c text ih =>
    obtain ⟨piece, pieces, hpieces⟩ := List.exists_cons_of_ne_nil (splitOn_ne_nil sep text)
    rw [hpieces] at ih
    rw [List.flatMap_cons, ← ih]
    by_cases hc : c = sep
    · rw [splitOn, if_pos hc, if_pos hc, hpieces, List.map_cons, List.map_cons, List.intercalate_cons_cons]
      rfl
    · rw [splitOn, if_neg hc, if_neg hc, hpieces, List.map_cons, List.map_cons, List.flatMap_cons]
      cases pieces <;> simp [List.intercalate_cons_cons]

end Text

namespace Glob

/-- A text is a pattern with each star replaced by a run of characters. -/
inductive Fills : List Char → List Char → Prop where
  | nil : Fills [] []
  | char {c : Char} {pattern text : List Char} (h : c ≠ '*') (rest : Fills pattern text) :
      Fills (c :: pattern) (c :: text)
  | star {pattern text : List Char} (run : List Char) (rest : Fills pattern text) :
      Fills ('*' :: pattern) (run ++ text)

/-- A group of labels is one that a label of a name takes that has `count` labels, where it stands at
`index`. -/
def Takes (count index : Nat) (label : List Char) (group : List (List Char)) : Prop :=
  if label = ['*'] then
    if index = 0 then ∀ item ∈ group, item ≠ []
    else if index + 1 = count then ∃ item, group = [item] ∧ item ≠ []
    else group ≠ [] ∧ ∀ item ∈ group, item ≠ []
  else ∃ item, group = [item] ∧ Fills label item

/-- A domain can be divided among the labels of a name. -/
def Divides (name domain : List Char) : Prop :=
  ∃ groups : List (List (List Char)), groups.flatten = labels domain ∧
    List.Forall₂ (fun label group => Takes (labels name).length label.2 label.1 group)
      (labels name).zipIdx groups

theorem fills_char {c : Char} {pattern text : List Char} (h : c ≠ '*') :
    Fills (c :: pattern) text ↔ ∃ rest, text = c :: rest ∧ Fills pattern rest := by
  constructor
  · intro hfills
    cases hfills with
    | char _ rest => exact ⟨_, rfl, rest⟩
    | star run rest => exact absurd rfl h
  · rintro ⟨rest, rfl, hrest⟩
    exact .char h hrest

theorem fills_star {pattern text : List Char} :
    Fills ('*' :: pattern) text ↔ ∃ run rest, text = run ++ rest ∧ Fills pattern rest := by
  constructor
  · intro hfills
    cases hfills with
    | char h _ => exact absurd rfl h
    | star run rest => exact ⟨run, _, rfl, rest⟩
  · rintro ⟨run, rest, rfl, hrest⟩
    exact .star run hrest

end Glob

end TrafficPolicy
