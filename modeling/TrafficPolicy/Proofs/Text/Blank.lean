import Mathlib.Data.List.Forall2
import Mathlib.Data.List.TakeWhile
import TrafficPolicy.Text.Blank

/-!
# Trimming and cutting

Trimming drops only blank characters, and cutting takes apart what has been joined.
-/

namespace TrafficPolicy.Text

variable {p : Char → Bool} {c : Char} {cs rest : List Char}

theorem isBlank_of_visible (hlow : 32 < c.toNat) (hhigh : c.toNat < 127) : isBlank c = false := by
  simp only [isBlank, Bool.or_eq_false_iff, Bool.and_eq_false_iff, decide_eq_false_iff_not, beq_eq_false_iff_ne]
  omega

theorem mem_dropWhile (hc : p c = false) : c ∈ cs.dropWhile p ↔ c ∈ cs := by
  induction cs with
  | nil => rfl
  | cons d cs ih =>
    rw [List.dropWhile_cons]
    split
    · rename_i hd
      have hne : c ≠ d := by
        rintro rfl
        rw [hc] at hd
        cases hd
      rw [ih, List.mem_cons, or_iff_right hne]
    · rfl

theorem mem_dropTailWhile (hc : p c = false) : c ∈ dropTailWhile p cs ↔ c ∈ cs := by
  rw [dropTailWhile, List.mem_reverse, mem_dropWhile hc, List.mem_reverse]

theorem dropWhile_eq_self (h : ∀ c ∈ cs.head?, p c = false) : cs.dropWhile p = cs := by
  cases cs with
  | nil => rfl
  | cons c cs => rw [List.dropWhile_cons_of_neg (by simp [h c rfl])]

theorem dropTailWhile_eq_self (h : ∀ c ∈ cs.getLast?, p c = false) : dropTailWhile p cs = cs := by
  rw [dropTailWhile, dropWhile_eq_self, List.reverse_reverse]
  simpa using h

theorem takeWhile_append_stop (h : ∀ c ∈ rest.head?, p c = false) : (cs ++ rest).takeWhile p = cs.takeWhile p := by
  induction cs with
  | nil =>
    cases rest with
    | nil => rfl
    | cons c rest => exact List.takeWhile_cons_of_neg (by simp [h c rfl])
  | cons c cs ih => rw [List.cons_append, List.takeWhile_cons, List.takeWhile_cons, ih]

theorem dropWhile_append_stop (h : ∀ c ∈ rest.head?, p c = false) :
    (cs ++ rest).dropWhile p = cs.dropWhile p ++ rest := by
  induction cs with
  | nil => exact dropWhile_eq_self h
  | cons c cs ih =>
    rw [List.cons_append, List.dropWhile_cons, List.dropWhile_cons, ih]
    split <;> rfl

theorem trim_eq_self (h : ∀ c ∈ cs, isBlank c = false) : trim cs = cs := by
  have hhead : cs.dropWhile isBlank = cs :=
    dropWhile_eq_self fun c hc => h c (List.mem_of_mem_head? hc)
  rw [trim, hhead]
  exact dropTailWhile_eq_self fun c hc => h c (List.mem_of_mem_getLast? hc)

/-! ## Cutting -/

theorem splitOn_append {sep : Char} {piece : List Char} (h : sep ∉ piece) (rest : List Char) :
    splitOn sep (piece ++ sep :: rest) = piece :: splitOn sep rest := by
  induction piece with
  | nil => simp [splitOn]
  | cons c piece ih =>
    simp only [List.mem_cons, not_or] at h
    rw [List.cons_append, splitOn, if_neg (Ne.symm h.1), ih h.2]

theorem splitOn_of_not_mem {sep : Char} {piece : List Char} (h : sep ∉ piece) :
    splitOn sep piece = [piece] := by
  induction piece with
  | nil => rfl
  | cons c piece ih =>
    simp only [List.mem_cons, not_or] at h
    rw [splitOn, if_neg (Ne.symm h.1), ih h.2]

theorem splitOn_intercalate {sep : Char} {pieces : List (List Char)} (hne : pieces ≠ [])
    (h : ∀ piece ∈ pieces, sep ∉ piece) : splitOn sep ([sep].intercalate pieces) = pieces := by
  induction pieces with
  | nil => exact absurd rfl hne
  | cons piece pieces ih =>
    have hpiece := h piece List.mem_cons_self
    cases pieces with
    | nil => simpa using splitOn_of_not_mem hpiece
    | cons next pieces =>
      have ih := ih (by simp) fun other hother => h other (List.mem_cons_of_mem _ hother)
      rw [List.intercalate_cons_cons, List.append_assoc, List.singleton_append, splitOn_append hpiece, ih]

theorem splitOn_joinWith {α : Type} {sep : Char} {items : List α} {text : α → String} (hne : items ≠ [])
    (h : ∀ item ∈ items, sep ∉ (text item).toList) :
    splitOn sep (joinWith (String.singleton sep) (items.map text)).toList =
      items.map fun item => (text item).toList := by
  rw [joinWith, String.toList_intercalate, String.toList_singleton, List.map_map]
  refine splitOn_intercalate (by simpa using hne) ?_
  intro piece hpiece
  obtain ⟨item, hitem, rfl⟩ := List.mem_map.mp hpiece
  exact h item hitem

/-- What stands in a text made of pieces is in a piece or separates two of them. -/
theorem mem_joinWith {sep : String} {pieces : List String} (h : c ∈ (joinWith sep pieces).toList) :
    c ∈ sep.toList ∨ ∃ piece ∈ pieces, c ∈ piece.toList := by
  induction pieces with
  | nil => simp [joinWith] at h
  | cons piece pieces ih =>
    cases pieces with
    | nil =>
      refine .inr ⟨piece, List.mem_cons_self, ?_⟩
      simpa [joinWith] using h
    | cons next pieces =>
      unfold joinWith at h ih
      rw [String.intercalate_cons_cons, String.toList_append, String.toList_append, List.mem_append,
        List.mem_append] at h
      rcases h with (h | h) | h
      · exact .inr ⟨piece, List.mem_cons_self, h⟩
      · exact .inl h
      · rcases ih h with h | ⟨other, hother, h⟩
        · exact .inl h
        · exact .inr ⟨other, List.mem_cons_of_mem _ hother, h⟩

theorem splitOnce_append {sep : Char} (h : sep ∉ cs) (rest : List Char) :
    splitOnce sep (cs ++ sep :: rest) = some (cs, rest) := by
  have hcs : ∀ c ∈ cs, (c != sep) = true := by
    intro c hc
    rw [bne_iff_ne]
    rintro rfl
    exact h hc
  rw [splitOnce, List.dropWhile_append_of_pos hcs, List.takeWhile_append_of_pos hcs]
  simp

theorem splitOnce_of_not_mem {sep : Char} (h : sep ∉ cs) : splitOnce sep cs = none := by
  have hcs : cs.dropWhile (· != sep) = [] := by
    rw [List.dropWhile_eq_nil_iff]
    intro c hc
    rw [bne_iff_ne]
    rintro rfl
    exact h hc
  rw [splitOnce, hcs]

theorem stripStart?_append (start cs : List Char) : stripStart? start (start ++ cs) = some cs := by
  rw [stripStart?, if_pos (List.isPrefixOf_iff_prefix.mpr (List.prefix_append _ _)), List.drop_left]

theorem stripStart?_eq_none {start : List Char} (h : ¬ start <+: cs) : stripStart? start cs = none := by
  rw [stripStart?, if_neg]
  rwa [List.isPrefixOf_iff_prefix]

/-! ## Reading the pieces -/

variable {α β ε : Type} {read : α → Except ε β} {items : List α} {values : List β}

/-- Reading all items succeeds exactly if reading each of them does. -/
theorem mapM_eq_ok_iff :
    items.mapM read = .ok values ↔ List.Forall₂ (fun item value => read item = .ok value) items values := by
  induction items generalizing values with
  | nil => cases values <;> simp [pure, Except.pure]
  | cons item items ih =>
    rw [List.mapM_cons]
    constructor
    · intro h
      cases hitem : read item with
      | error e =>
        rw [hitem] at h
        cases h
      | ok value =>
        cases hitems : items.mapM read with
        | error e =>
          rw [hitem, hitems] at h
          cases h
        | ok rest =>
          rw [hitem, hitems] at h
          cases h
          exact .cons hitem (ih.mp hitems)
    · intro h
      cases h with
      | cons hitem hitems =>
        rw [hitem, ih.mpr hitems]
        rfl

theorem exists_forall₂ {R : α → β → Prop} (h : ∀ item ∈ items, ∃ value, R item value) :
    ∃ values, List.Forall₂ R items values := by
  induction items with
  | nil => exact ⟨[], .nil⟩
  | cons item items ih =>
    obtain ⟨value, hvalue⟩ := h item List.mem_cons_self
    obtain ⟨values, hvalues⟩ := ih fun other hother => h other (List.mem_cons_of_mem _ hother)
    exact ⟨value :: values, .cons hvalue hvalues⟩

theorem exists_of_forall₂ {R : α → β → Prop} (h : List.Forall₂ R items values) :
    ∀ item ∈ items, ∃ value ∈ values, R item value := by
  induction h with
  | nil => simp
  | @cons item value items values hfirst _ ih =>
    refine List.forall_mem_cons.mpr ⟨⟨value, List.mem_cons_self, hfirst⟩, fun other hother => ?_⟩
    obtain ⟨found, hfound, hR⟩ := ih other hother
    exact ⟨found, List.mem_cons_of_mem _ hfound, hR⟩

theorem forall₂_append_left_iff {R : α → β → Prop} {before after : List α} {read : List β} :
    List.Forall₂ R (before ++ after) read ↔
      ∃ first last, List.Forall₂ R before first ∧ List.Forall₂ R after last ∧ read = first ++ last := by
  induction before generalizing read with
  | nil => simp
  | cons item before ih =>
    simp only [List.cons_append, List.forall₂_cons_left_iff, ih]
    constructor
    · rintro ⟨value, _, hvalue, ⟨first, last, hfirst, hlast, rfl⟩, rfl⟩
      exact ⟨value :: first, last, ⟨value, first, hvalue, hfirst, rfl⟩, hlast, rfl⟩
    · rintro ⟨_, last, ⟨value, first, hvalue, hfirst, rfl⟩, hlast, rfl⟩
      exact ⟨value, _, hvalue, ⟨first, last, hfirst, hlast, rfl⟩, rfl⟩

theorem exists_item_of_mem {value : β} (h : items.mapM read = .ok values) (hv : value ∈ values) :
    ∃ item ∈ items, read item = .ok value :=
  exists_of_forall₂ (mapM_eq_ok_iff.mp h).flip value hv

end TrafficPolicy.Text
