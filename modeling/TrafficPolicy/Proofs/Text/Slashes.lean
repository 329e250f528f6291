import Mathlib.Algebra.Group.Nat.Even
import Mathlib.Data.List.Basic
import Mathlib.Data.List.Induction
import TrafficPolicy.Policy.Mapping

/-!
# Replacements between slashes

The text of a replacement is taken apart at the first slash whose meaning no backslash takes away. An expression can
be written there exactly if its own backslashes are paired, before each of its slashes and at its end; the replacement
may be any text.
-/

namespace TrafficPolicy.Mapping

variable {escaped : Bool} {c : Char} {cs e before after raw replacement : List Char}

def escapeSlashes (e : List Char) : List Char :=
  e.flatMap fun c => if c = '/' then ['\\', '/'] else [c]

def closingBackslashes (cs : List Char) : Nat :=
  (cs.reverse.takeWhile (· = '\\')).length

/-- The backslashes of an expression can be taken in pairs where it matters: before each slash and at the end. -/
structure Paired (e : List Char) : Prop where
  atEnd : Even (closingBackslashes e)
  beforeSlash : ∀ before after, e = before ++ '/' :: after → Even (closingBackslashes before)

/-! ## The meaning of a backslash -/

/-- Whether the character after a text has lost its meaning, given whether that of the first one has. -/
def escapes (escaped : Bool) (cs : List Char) : Bool :=
  cs.foldl (fun escaped c => c = '\\' && !escaped) escaped

theorem escapes_concat (escaped : Bool) (cs : List Char) (c : Char) :
    escapes escaped (cs ++ [c]) = (decide (c = '\\') && !escapes escaped cs) := by
  rw [escapes, List.foldl_append]
  rfl

theorem closingBackslashes_concat (cs : List Char) (c : Char) :
    closingBackslashes (cs ++ [c]) = if c = '\\' then closingBackslashes cs + 1 else 0 := by
  rw [closingBackslashes, List.reverse_concat, List.takeWhile_cons]
  by_cases hc : c = '\\' <;> simp [hc, closingBackslashes]

theorem escapes_eq_false_iff (cs : List Char) : escapes false cs = false ↔ Even (closingBackslashes cs) := by
  induction cs using List.reverseRecOn with
  | nil => simp [escapes, closingBackslashes]
  | append_singleton cs c ih =>
    rw [escapes_concat, closingBackslashes_concat]
    by_cases hc : c = '\\'
    · rw [if_pos hc, Nat.even_add_one, ← ih]
      simp [hc]
    · simp [hc]

/-- A slash whose meaning is taken away has a backslash before it. -/
theorem getLast?_of_escapes (h : escapes false cs = true) : cs.getLast? = some '\\' := by
  obtain rfl | ⟨start, c, rfl⟩ := List.eq_nil_or_concat' cs
  · cases h
  · rw [escapes_concat, Bool.and_eq_true, decide_eq_true_eq] at h
    rw [List.getLast?_concat, h.1]

/-! ## Writing slashes -/

theorem escapeSlashes_cons (c : Char) (cs : List Char) :
    escapeSlashes (c :: cs) = (if c = '/' then ['\\', '/'] else [c]) ++ escapeSlashes cs :=
  List.flatMap_cons

theorem escapeSlashes_append (cs ds : List Char) : escapeSlashes (cs ++ ds) = escapeSlashes cs ++ escapeSlashes ds :=
  List.flatMap_append

theorem escapes_escapeSlashes (cs : List Char) : escapes false (escapeSlashes cs) = escapes false cs := by
  induction cs using List.reverseRecOn with
  | nil => rfl
  | append_singleton cs c ih =>
    rw [escapeSlashes_append, escapes_concat]
    by_cases hc : c = '/'
    · have hwritten : escapeSlashes [c] = ['\\'] ++ ['/'] := by simp [escapeSlashes, hc]
      rw [hwritten, ← List.append_assoc, escapes_concat, hc]
      rfl
    · have hwritten : escapeSlashes [c] = [c] := by simp [escapeSlashes, hc]
      rw [hwritten, escapes_concat, ih]

/-- Each slash that is written is one of the expression, with the backslash that was put before it. -/
theorem exists_slash_of_escapeSlashes {start rest : List Char} (h : escapeSlashes e = start ++ '/' :: rest) :
    ∃ before after, e = before ++ '/' :: after ∧ start = escapeSlashes before ++ ['\\'] := by
  induction e generalizing start with
  | nil => simp [escapeSlashes] at h
  | cons c cs ih =>
    rw [escapeSlashes_cons] at h
    by_cases hc : c = '/'
    · rw [if_pos hc] at h
      -- The slash at hand is behind the backslash that was put before it, or behind both characters.
      match start with
      | [] => simp at h
      | [_] =>
        obtain ⟨rfl, -⟩ : '\\' = _ ∧ _ := by simpa using h
        exact ⟨[], cs, by rw [hc, List.nil_append], rfl⟩
      | _ :: _ :: start =>
        obtain ⟨rfl, rfl, hcs⟩ : '\\' = _ ∧ '/' = _ ∧ escapeSlashes cs = start ++ '/' :: rest := by simpa using h
        obtain ⟨before, after, rfl, rfl⟩ := ih hcs
        exact ⟨c :: before, after, rfl, by simp [escapeSlashes_cons, hc]⟩
    · rw [if_neg hc] at h
      cases start with
      | nil =>
        obtain ⟨rfl, -⟩ : c = '/' ∧ _ := by simpa using h
        exact absurd rfl hc
      | cons d start =>
        obtain ⟨rfl, hcs⟩ : c = d ∧ escapeSlashes cs = start ++ '/' :: rest := by simpa using h
        obtain ⟨before, after, rfl, rfl⟩ := ih hcs
        exact ⟨c :: before, after, rfl, by simp [escapeSlashes_cons, hc]⟩

/-- All written slashes have lost their meaning exactly if the expression's own backslashes before them are paired. -/
theorem slashes_escaped_iff :
    (∀ start rest, escapeSlashes e = start ++ '/' :: rest → escapes false start = true) ↔
      ∀ before after, e = before ++ '/' :: after → Even (closingBackslashes before) := by
  have hwritten (before : List Char) :
      escapes false (escapeSlashes before ++ ['\\']) = true ↔ Even (closingBackslashes before) := by
    rw [escapes_concat, escapes_escapeSlashes, ← escapes_eq_false_iff]
    simp
  constructor
  · rintro h before after rfl
    refine (hwritten before).mp (h _ (escapeSlashes after) ?_)
    simp [escapeSlashes_append, escapeSlashes_cons]
  · intro h start rest hstart
    obtain ⟨before, after, he, rfl⟩ := exists_slash_of_escapeSlashes hstart
    exact (hwritten before).mpr (h before after he)

/-! ## Reading slashes -/

theorem unescapeSlashes_cons (c : Char) (h : cs.head? ≠ some '/') :
    unescapeSlashes (c :: cs) = c :: unescapeSlashes cs := by
  rw [unescapeSlashes]
  rintro rest - rfl
  exact h rfl

theorem head?_escapeSlashes (e : List Char) : (escapeSlashes e).head? ≠ some '/' := by
  cases e with
  | nil => simp [escapeSlashes]
  | cons c cs =>
    rw [escapeSlashes_cons]
    by_cases hc : c = '/' <;> simp [hc]

theorem unescapeSlashes_escapeSlashes (e : List Char) : unescapeSlashes (escapeSlashes e) = e := by
  induction e with
  | nil => rfl
  | cons c cs ih =>
    rw [escapeSlashes_cons]
    by_cases hc : c = '/'
    · rw [if_pos hc, hc]
      exact congrArg ('/' :: ·) ih
    · rw [if_neg hc, List.singleton_append, unescapeSlashes_cons c (head?_escapeSlashes cs), ih]

/-- A text is written again as it was if each of its slashes has a backslash before it. -/
theorem escapeSlashes_unescapeSlashes (h : ∀ start rest, cs = start ++ '/' :: rest → start.getLast? = some '\\') :
    escapeSlashes (unescapeSlashes cs) = cs := by
  induction cs using unescapeSlashes.induct with
  | case1 cs ih =>
    rw [unescapeSlashes, escapeSlashes_cons, if_pos rfl, ih]
    · rfl
    · rintro start rest rfl
      have hlast := h ('\\' :: '/' :: start) rest rfl
      cases start with
      | nil => simp at hlast
      | cons d start => simpa using hlast
  | case2 c cs hc ih =>
    have hne : c ≠ '/' := by
      rintro rfl
      cases h [] cs rfl
    rw [unescapeSlashes, escapeSlashes_cons, if_neg hne, List.singleton_append, ih]
    · rintro start rest rfl
      have hlast := h (c :: start) rest rfl
      cases start with
      | nil => exact absurd rfl (hc rest (by simpa using hlast))
      | cons d start => simpa using hlast
    · exact hc
  | case3 => rfl

theorem splitAtSlash_cons (escaped : Bool) (c : Char) (cs : List Char) :
    splitAtSlash escaped (c :: cs) = if c = '/' ∧ escaped = false then some ([], cs)
      else (splitAtSlash (c = '\\' && !escaped) cs).map fun (before, after) => (c :: before, after) := by
  rw [splitAtSlash]
  by_cases hc : c = '\\'
  · cases escaped <;> simp [hc]
  · cases escaped <;> simp [hc]

/-- A text is split at a slash that keeps its meaning, and no slash before that does. -/
theorem splitAtSlash_eq_some_iff :
    splitAtSlash escaped cs = some (before, after) ↔
      cs = before ++ '/' :: after ∧ escapes escaped before = false ∧
        ∀ start rest, before = start ++ '/' :: rest → escapes escaped start = true := by
  -- The meaning of the first character is the state of the scan, so it varies in the induction.
  induction cs generalizing escaped before with
  | nil => simp [splitAtSlash]
  | cons c cs ih =>
    rw [splitAtSlash_cons]
    split
    · rename_i hslash
      obtain ⟨rfl, rfl⟩ := hslash
      constructor
      · intro h
        obtain ⟨rfl, rfl⟩ : [] = before ∧ cs = after := by simpa using h
        simp [escapes]
      · rintro ⟨hcs, -, hbefore⟩
        cases before with
        | nil => simpa using hcs
        | cons d before =>
          obtain ⟨rfl, -⟩ : '/' = d ∧ _ := by simpa using hcs
          cases hbefore [] before rfl
    · rename_i hslash
      rw [Option.map_eq_some_iff]
      constructor
      · rintro ⟨⟨first, _⟩, hfirst, heq⟩
        obtain ⟨rfl, rfl⟩ := Prod.mk.inj heq
        obtain ⟨rfl, hend, hbefore⟩ := ih.mp hfirst
        refine ⟨rfl, hend, fun start rest hstart => ?_⟩
        cases start with
        | nil =>
          obtain ⟨rfl, -⟩ : c = '/' ∧ _ := by simpa using hstart
          simpa [escapes] using hslash
        | cons d start =>
          obtain ⟨rfl, hfirst⟩ : c = d ∧ first = start ++ '/' :: rest := by simpa using hstart
          exact hbefore start rest hfirst
      · rintro ⟨hcs, hend, hbefore⟩
        cases before with
        | nil =>
          obtain ⟨rfl, -⟩ : c = '/' ∧ _ := by simpa using hcs
          exact absurd ⟨rfl, hend⟩ hslash
        | cons d before =>
          obtain ⟨rfl, hrest⟩ : c = d ∧ cs = before ++ '/' :: after := by simpa using hcs
          have hfirst : splitAtSlash (c = '\\' && !escaped) cs = some (before, after) := by
            refine ih.mpr ⟨hrest, hend, fun start rest hstart => ?_⟩
            exact hbefore (c :: start) rest (congrArg (c :: ·) hstart)
          exact ⟨_, hfirst, rfl⟩

theorem betweenSlashes?_eq_some_iff {body : List Char} :
    betweenSlashes? raw = some body ↔ raw = '/' :: (body ++ ['/']) := by
  unfold betweenSlashes?
  split
  · rename_i rest
    rw [List.cons_inj_right]
    split
    · rename_i hlast
      obtain ⟨init, rfl⟩ := List.getLast?_eq_some_iff.mp hlast
      simp
    · rename_i hlast
      constructor
      · intro h
        cases h
      · rintro rfl
        simp at hlast
  · rename_i hraw
    constructor
    · intro h
      cases h
    · rintro rfl
      exact absurd rfl (hraw _)

theorem splitReplace_eq_some_iff_exists :
    splitReplace raw = some (e, replacement) ↔ ∃ body, betweenSlashes? raw = some body ∧
      ∃ written, splitAtSlash false body = some (written, replacement) ∧ unescapeSlashes written = e := by
  simp [splitReplace, Option.bind_eq_some_iff]

/-- An expression and a replacement are read from a text exactly if it is what they are written as and the backslashes
of the expression are paired. The slashes and backslashes of the replacement stand for themselves. -/
theorem splitReplace_eq_some_iff :
    splitReplace raw = some (e, replacement) ↔
      Paired e ∧ raw = '/' :: (escapeSlashes e ++ '/' :: replacement ++ ['/']) := by
  rw [splitReplace_eq_some_iff_exists]
  constructor
  · rintro ⟨body, hbody, written, hsplit, he⟩
    obtain rfl := betweenSlashes?_eq_some_iff.mp hbody
    obtain ⟨rfl, hend, hslashes⟩ := splitAtSlash_eq_some_iff.mp hsplit
    obtain rfl : escapeSlashes e = written := by
      rw [← he]
      exact escapeSlashes_unescapeSlashes fun start rest hstart => getLast?_of_escapes (hslashes start rest hstart)
    rw [escapes_escapeSlashes, escapes_eq_false_iff] at hend
    exact ⟨⟨hend, slashes_escaped_iff.mp hslashes⟩, rfl⟩
  · rintro ⟨hpaired, hraw⟩
    have hend : escapes false (escapeSlashes e) = false := by
      rw [escapes_escapeSlashes, escapes_eq_false_iff]
      exact hpaired.atEnd
    have hsplit : splitAtSlash false (escapeSlashes e ++ '/' :: replacement) = some (escapeSlashes e, replacement) :=
      splitAtSlash_eq_some_iff.mpr ⟨rfl, hend, slashes_escaped_iff.mpr hpaired.beforeSlash⟩
    exact ⟨_, betweenSlashes?_eq_some_iff.mpr hraw, _, hsplit, unescapeSlashes_escapeSlashes e⟩

example : splitReplace "/g\\.cn\\/old/g.cn/new\\/".toList = some ("g\\.cn/old".toList, "g.cn/new\\".toList) := by decide

end TrafficPolicy.Mapping
