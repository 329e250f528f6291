import TrafficPolicy.Proofs.Text.Blank
import TrafficPolicy.Text.Words

/-!
# Words that are read as they were written

No word of a command has a double quote in it. Words without double quotes can be written, each quoted if it
has to be, and are read again as they are. The quotes are written exactly around those words that would be split or
lost without them.
-/

namespace TrafficPolicy.Text

def Plain (word : String) : Prop := '"' ∉ word.toList

instance (word : String) : Decidable (Plain word) := inferInstanceAs (Decidable (_ ∉ _))

/-! ## What is read has no quotes -/

private theorem scanWords_plain {quoted : Bool} {word : Option (List Char)} {cs : List Char}
    (hword : ∀ w ∈ word, '"' ∉ w) : ∀ w ∈ scanWords quoted word cs, '"' ∉ w := by
  induction cs generalizing quoted word with
  | nil =>
    intro w hw
    simp only [scanWords, Option.mem_toList, Option.map_eq_some_iff] at hw
    obtain ⟨v, hv, rfl⟩ := hw
    simpa using hword v hv
  | cons c cs ih =>
    simp only [scanWords]
    split
    · apply ih
      intro w hw
      obtain rfl := Option.some.inj hw
      cases word with
      | none => simp
      | some v => exact hword v rfl
    · rename_i hc
      split
      · intro w hw
        rcases List.mem_append.mp hw with hw | hw
        · simp only [Option.mem_toList, Option.map_eq_some_iff] at hw
          obtain ⟨v, hv, rfl⟩ := hw
          simpa using hword v hv
        · exact ih (by simp) w hw
      · apply ih
        intro w hw
        obtain rfl := Option.some.inj hw
        cases word with
        | none => simpa using Ne.symm hc
        | some v => simpa using ⟨Ne.symm hc, hword v rfl⟩

theorem plain_of_mem_words {command word : String} (h : word ∈ words command) : Plain word := by
  obtain ⟨w, hw, rfl⟩ := List.mem_map.mp h
  rw [Plain, String.toList_ofList]
  exact scanWords_plain (by simp) w hw

/-- As long as there is no quote, a blank never gets into a word, and a word begins with a character. -/
private theorem scanWords_unbroken {word : Option (List Char)} {cs : List Char} (hcs : '"' ∉ cs)
    (hword : ∀ w ∈ word, needsQuotes w = false) : ∀ w ∈ scanWords false word cs, needsQuotes w = false := by
  induction cs generalizing word with
  | nil =>
    intro w hw
    simp only [scanWords, Option.mem_toList, Option.map_eq_some_iff] at hw
    obtain ⟨v, hv, rfl⟩ := hw
    simpa [needsQuotes] using hword v hv
  | cons c cs ih =>
    obtain ⟨hc, hcs⟩ : '"' ≠ c ∧ '"' ∉ cs := by simpa using hcs
    rw [scanWords, if_neg (Ne.symm hc), Bool.not_false, Bool.and_true]
    split
    · intro w hw
      rcases List.mem_append.mp hw with hw | hw
      · simp only [Option.mem_toList, Option.map_eq_some_iff] at hw
        obtain ⟨v, hv, rfl⟩ := hw
        simpa [needsQuotes] using hword v hv
      · exact ih hcs (by simp) w hw
    · rename_i hblank
      apply ih hcs
      intro w hw
      obtain rfl := Option.some.inj hw
      cases word with
      | none => simpa [needsQuotes] using hblank
      | some v =>
        have hv := hword v rfl
        rw [needsQuotes, Bool.or_eq_false_iff] at hv
        simp [needsQuotes, hblank, hv.2]

theorem needsQuotes_of_mem_words {command word : String} (hcommand : Plain command) (h : word ∈ words command) :
    needsQuotes word.toList = false := by
  obtain ⟨w, hw, rfl⟩ := List.mem_map.mp h
  rw [String.toList_ofList]
  exact scanWords_unbroken hcommand (by simp) w hw

/-! ## What is written is read again -/

private theorem scanWords_quoted {w : List Char} (hw : '"' ∉ w) (begun cs : List Char) :
    scanWords true (some begun) (w ++ cs) = scanWords true (some (w.reverse ++ begun)) cs := by
  induction w generalizing begun with
  | nil => rfl
  | cons c w ih =>
    obtain ⟨hc, hw⟩ : '"' ≠ c ∧ '"' ∉ w := by simpa using hw
    simp [scanWords, Ne.symm hc, ih hw]

private theorem scanWords_unquoted {w : List Char} (hw : '"' ∉ w) (hblank : w.any isBlank = false)
    (begun cs : List Char) :
    scanWords false (some begun) (w ++ cs) = scanWords false (some (w.reverse ++ begun)) cs := by
  induction w generalizing begun with
  | nil => rfl
  | cons c w ih =>
    obtain ⟨hc, hw⟩ : '"' ≠ c ∧ '"' ∉ w := by simpa using hw
    rw [List.any_cons, Bool.or_eq_false_iff] at hblank
    simp [scanWords, Ne.symm hc, hblank.1, ih hw hblank.2]

private theorem scanWords_quote {word : String} (h : Plain word) (cs : List Char) :
    scanWords false none ((quote word).toList ++ cs) = scanWords false (some word.toList.reverse) cs := by
  unfold quote
  split
  · simp [scanWords, scanWords_quoted h]
  · rename_i hquote
    simp only [needsQuotes, Bool.or_eq_true, not_or, Bool.not_eq_true] at hquote
    obtain ⟨hne, hblank⟩ := hquote
    obtain ⟨c, w, hcw⟩ := List.exists_cons_of_ne_nil (by simpa using hne : word.toList ≠ [])
    obtain ⟨hc, hw⟩ : '"' ≠ c ∧ '"' ∉ w := by simpa [Plain, hcw] using h
    rw [hcw, List.any_cons, Bool.or_eq_false_iff] at hblank
    rw [hcw]
    simp [scanWords, Ne.symm hc, hblank.1, scanWords_unquoted hw hblank.2]

def line (words : List String) : String :=
  joinWith " " (words.map quote)

theorem words_line {ws : List String} (h : ∀ w ∈ ws, Plain w) : words (line ws) = ws := by
  have hscan : scanWords false none (line ws).toList = ws.map String.toList := by
    induction ws with
    | nil => rfl
    | cons w ws ih =>
      have hw := h w List.mem_cons_self
      have ih := ih fun v hv => h v (List.mem_cons_of_mem _ hv)
      unfold line joinWith at ih ⊢
      cases ws with
      | nil =>
        have hone := scanWords_quote hw []
        rw [List.append_nil] at hone
        simp [hone, scanWords]
      | cons v ws =>
        rw [List.map_cons, List.map_cons, String.intercalate_cons_cons]
        rw [List.map_cons] at ih
        simp only [String.toList_append, List.append_assoc, scanWords_quote hw]
        have hspace : scanWords false (some w.toList.reverse) (" ".toList ++
            (" ".intercalate (quote v :: ws.map quote)).toList) =
            w.toList :: scanWords false none (" ".intercalate (quote v :: ws.map quote)).toList := by
          simp only [show " ".toList = [' '] from rfl, List.cons_append, List.nil_append]
          generalize (" ".intercalate (quote v :: ws.map quote)).toList = cs
          simp [scanWords, isBlank]
        rw [hspace, ih]
        rfl
  simp [words, hscan, List.map_map, Function.comp_def]

theorem words_line_iff {ws : List String} : words (line ws) = ws ↔ ∀ word ∈ ws, Plain word := by
  refine ⟨fun h word hword => ?_, words_line⟩
  rw [← h] at hword
  exact plain_of_mem_words hword

theorem line_injective {ws vs : List String} (hws : ∀ w ∈ ws, Plain w) (hvs : ∀ v ∈ vs, Plain v)
    (h : line ws = line vs) : ws = vs := by
  rw [← words_line hws, ← words_line hvs, h]

/-! ## Lines made of lines -/

theorem line_singleton (word : String) : line [word] = quote word :=
  String.intercalate_singleton (s := " ")

theorem quote_eq_self {word : String} (h : needsQuotes word.toList = false) : quote word = word := by
  simp [quote, h]

theorem quote_eq_self_iff {word : String} : quote word = word ↔ needsQuotes word.toList = false := by
  refine ⟨fun h => ?_, quote_eq_self⟩
  by_contra hneeds
  rw [quote, if_pos (by simpa using hneeds)] at h
  have hlength := congrArg String.length h
  simp only [String.length_append] at hlength
  have hquote : "\"".length = 1 := rfl
  omega

/-- A word alone is read as it stands if it has no quote in it and is written without quotes. -/
theorem words_self_iff {word : String} : words word = [word] ↔ Plain word ∧ quote word = word := by
  rw [quote_eq_self_iff]
  constructor
  · intro h
    have hmem : word ∈ words word := by
      rw [h]
      exact List.mem_singleton_self word
    have hplain := plain_of_mem_words hmem
    exact ⟨hplain, needsQuotes_of_mem_words hplain hmem⟩
  · rintro ⟨hplain, hneeds⟩
    have hline : words (line [word]) = [word] := words_line (by simpa using hplain)
    rwa [line_singleton, quote_eq_self hneeds] at hline

theorem line_append {ws vs : List String} (hws : ws ≠ []) (hvs : vs ≠ []) :
    line (ws ++ vs) = line ws ++ " " ++ line vs := by
  unfold line joinWith
  rw [List.map_append, String.intercalate_append_of_ne_nil (by simpa using hws) (by simpa using hvs)]

theorem joinWith_lines {lines : List (List String)} (h : ∀ ws ∈ lines, ws ≠ []) :
    joinWith " " (lines.map line) = line lines.flatten := by
  induction lines with
  | nil => rfl
  | cons ws lines ih =>
    have ih := ih fun vs hvs => h vs (List.mem_cons_of_mem _ hvs)
    cases lines with
    | nil => simp [joinWith, String.intercalate_singleton]
    | cons vs lines =>
      have hne : (vs :: lines).flatten ≠ [] := by
        have := h vs (List.mem_cons_of_mem _ List.mem_cons_self)
        simp [this]
      rw [List.flatten_cons, line_append (h ws List.mem_cons_self) hne, ← ih]
      exact String.intercalate_cons_cons

/-- Words are read again from where they are written, each quoted as it has to be, exactly if no quote is in any of
them; and this is so of the words of every command, however its own quotes stand. Quotes are left out exactly where a
word without a quote in it is read as it stands. -/
theorem words_reread :
    (∀ ws : List String, words (joinWith " " (ws.map quote)) = ws ↔ ∀ word ∈ ws, '"' ∉ word.toList) ∧
    (∀ command : String, (∀ word ∈ words command, '"' ∉ word.toList) ∧
      words (joinWith " " ((words command).map quote)) = words command) ∧
    ∀ word : String, words word = [word] ↔ '"' ∉ word.toList ∧ quote word = word := by
  refine ⟨fun ws => words_line_iff, fun command => ?_, fun word => words_self_iff⟩
  have hplain : ∀ word ∈ words command, Plain word := fun word hword => plain_of_mem_words hword
  exact ⟨hplain, words_line hplain⟩

/-! ## Words that need no quotes -/

structure Bare (word : String) : Prop where
  nonempty : word.toList ≠ []
  unbroken : ∀ c ∈ word.toList, isBlank c = false ∧ c ≠ '"'

namespace Bare

variable {word : String}

theorem plain (h : Bare word) : Plain word := fun hmem => (h.unbroken _ hmem).2 rfl

theorem quote_eq (h : Bare word) : quote word = word := by
  refine quote_eq_self ?_
  simp only [needsQuotes, Bool.or_eq_false_iff, List.any_eq_false, Bool.not_eq_true]
  exact ⟨by simpa using h.nonempty, fun c hc => (h.unbroken c hc).1⟩

theorem append {other : String} (h : Bare word) (ho : Bare other) : Bare (word ++ other) where
  nonempty := by simp [h.nonempty]
  unbroken := by
    intro c hc
    rw [String.toList_append, List.mem_append] at hc
    exact hc.elim (h.unbroken c) (ho.unbroken c)

/-- Bare words make a bare word with a separator that is no blank and no quote. -/
theorem joined (sep : Char) {pieces : List String} (hne : pieces ≠ []) (h : ∀ piece ∈ pieces, Bare piece)
    (hsep : isBlank sep = false ∧ sep ≠ '"') : Bare (joinWith (String.singleton sep) pieces) where
  nonempty := by
    obtain ⟨piece, pieces, rfl⟩ := List.exists_cons_of_ne_nil hne
    have hpiece := (h piece List.mem_cons_self).nonempty
    unfold joinWith
    cases pieces with
    | nil => simpa using hpiece
    | cons next pieces => simp
  unbroken := by
    intro c hc
    rcases mem_joinWith hc with hc | ⟨piece, hpiece, hc⟩
    · rw [String.toList_singleton, List.mem_singleton] at hc
      exact hc ▸ hsep
    · exact (h piece hpiece).unbroken c hc

theorem line_cons {words : List String} (h : Bare word) (hne : words ≠ []) :
    line (word :: words) = word ++ " " ++ line words := by
  rw [← List.singleton_append, line_append (List.cons_ne_nil _ _) hne, line_singleton, h.quote_eq]

/-- Bare words are written as they are. -/
theorem line_eq {words : List String} (h : ∀ word ∈ words, Bare word) : line words = joinWith " " words := by
  unfold line
  congr 1
  rw [List.map_congr_left fun word hword => (h word hword).quote_eq, List.map_id']

theorem iff_all : Bare word ↔ word.toList ≠ [] ∧ word.toList.all fun c => !isBlank c && c != '"' := by
  have hall : (word.toList.all fun c => !isBlank c && c != '"') ↔ ∀ c ∈ word.toList, isBlank c = false ∧ c ≠ '"' := by
    simp
  rw [hall]
  exact ⟨fun h => ⟨h.nonempty, h.unbroken⟩, fun h => ⟨h.1, h.2⟩⟩

instance (word : String) : Decidable (Bare word) := decidable_of_iff _ iff_all.symm

end Bare

end TrafficPolicy.Text
