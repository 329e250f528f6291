import Mathlib.Logic.Relation
import TrafficPolicy.Regex.Search

/-!
# What expressions match

An expression is a relation between places in a text: it leads from the place where a match begins to each
place where such a match may end. Nothing is said about which of the matches is preferred.
-/

namespace TrafficPolicy.Regex

open Relation (Comp)

/-- A place in a text: the character before it, and what is left of the text. -/
structure Spot where
  before : Option Char
  rest : List Char

/-- Between two places stands `word`. -/
def Spot.Spells (s : Spot) : List Char → Spot → Prop
  | [], t => s = t
  | c :: word, t => ∃ rest, s.rest = c :: rest ∧ Spells ⟨some c, rest⟩ word t

/-- The second place is the first one or stands after it. -/
def Spot.Precedes (s t : Spot) : Prop :=
  ∃ word, s.Spells word t

/-- Steps of a relation, as many as `count`. -/
def Copies {α : Type} (r : α → α → Prop) : (count : Nat) → α → α → Prop
  | 0 => Eq
  | count + 1 => Comp r (Copies r count)

/-- The expression matches what stands between two places. -/
def Node.Leads : Node → Spot → Spot → Prop
  | .empty => Eq
  | .text word => fun s t => s.Spells word t
  | .chars set => fun s t => ∃ c, set.contains c ∧ s.Spells [c] t
  | .look condition => fun s t => condition.holds s.before s.rest.head? ∧ s = t
  | .capture _ body => body.Leads
  | .cat first rest => Comp first.Leads rest.Leads
  | .alt first rest => fun s t => first.Leads s t ∨ rest.Leads s t
  | .rep body least most _ => fun s t =>
    ∃ more, (∀ n ∈ most, more ≤ n - least) ∧ Copies body.Leads (least + more) s t

section Spells

variable {s t : Spot} {c : Char} {first second word : List Char}

theorem spells_append : s.Spells (first ++ second) t ↔ ∃ m, s.Spells first m ∧ m.Spells second t := by
  induction first generalizing s with
  | nil => simp [Spot.Spells]
  | cons c first ih =>
    simp only [List.cons_append, Spot.Spells, ih]
    constructor
    · rintro ⟨rest, hrest, m, hfirst, hsecond⟩
      exact ⟨m, ⟨rest, hrest, hfirst⟩, hsecond⟩
    · rintro ⟨m, ⟨rest, hrest, hfirst⟩, hsecond⟩
      exact ⟨rest, hrest, m, hfirst, hsecond⟩

theorem Spot.Spells.rest_eq (h : s.Spells word t) : s.rest = word ++ t.rest := by
  induction word generalizing s with
  | nil =>
    obtain rfl := h
    rfl
  | cons c word ih =>
    obtain ⟨rest, hrest, hword⟩ := h
    rw [hrest, List.cons_append, ← ih hword]

/-- What is left of a text can be spelled to its end. -/
theorem spells_rest (s : Spot) : ∃ t, s.Spells s.rest t ∧ t.rest = [] := by
  obtain ⟨before, rest⟩ := s
  induction rest generalizing before with
  | nil => exact ⟨_, rfl, rfl⟩
  | cons c rest ih =>
    obtain ⟨t, ht, hend⟩ := ih (some c)
    exact ⟨t, ⟨rest, rfl, ht⟩, hend⟩

/-- The whole of what is left is spelled exactly by itself. -/
theorem spells_to_end : (∃ t, s.Spells word t ∧ t.rest = []) ↔ s.rest = word := by
  constructor
  · rintro ⟨t, hword, hend⟩
    rw [hword.rest_eq, hend, List.append_nil]
  · rintro rfl
    exact spells_rest s

theorem Spot.Spells.isSome_before (h : s.Spells word t) (hbefore : s.before.isSome) : t.before.isSome := by
  induction word generalizing s with
  | nil =>
    obtain rfl := h
    exact hbefore
  | cons c word ih =>
    obtain ⟨rest, -, hword⟩ := h
    exact ih hword rfl

/-- No place before which nothing stands comes after another one. -/
theorem eq_of_precedes (h : s.Precedes t) (hbefore : t.before = none) : t = s := by
  obtain ⟨word, hword⟩ := h
  cases word with
  | nil => exact hword.symm
  | cons c word =>
    obtain ⟨rest, -, hword⟩ := hword
    have hsome := hword.isSome_before rfl
    simp [hbefore] at hsome

theorem precedes_nil {before : Option Char} : Spot.Precedes ⟨before, []⟩ t ↔ t = ⟨before, []⟩ := by
  constructor
  · rintro ⟨word, hword⟩
    cases word with
    | nil => exact hword.symm
    | cons c word =>
      obtain ⟨rest, hrest, -⟩ := hword
      cases hrest
  · rintro rfl
    exact ⟨[], rfl⟩

theorem precedes_cons {before : Option Char} {text : List Char} :
    Spot.Precedes ⟨before, c :: text⟩ t ↔ t = ⟨before, c :: text⟩ ∨ Spot.Precedes ⟨some c, text⟩ t := by
  constructor
  · rintro ⟨word, hword⟩
    cases word with
    | nil => exact .inl hword.symm
    | cons d word =>
      obtain ⟨rest, hrest, hword⟩ := hword
      cases hrest
      exact .inr ⟨word, hword⟩
  · rintro (rfl | ⟨word, hword⟩)
    · exact ⟨[], rfl⟩
    · exact ⟨c :: word, text, rfl, hword⟩

end Spells

section Copies

variable {α : Type} {r : α → α → Prop} {m n : Nat}

theorem copies_add : Copies r (m + n) = Comp (Copies r m) (Copies r n) := by
  induction m with
  | zero => rw [Nat.zero_add, Copies, Relation.eq_comp]
  | succ m ih => rw [Nat.add_right_comm, Copies, Copies, ih, Relation.comp_assoc]

theorem copies_one : Copies r 1 = r :=
  Relation.comp_eq

end Copies

namespace Node

def LeadsAll : List Node → Spot → Spot → Prop
  | [] => Eq
  | node :: rest => Comp node.Leads (LeadsAll rest)

theorem leadsAll_singleton (node : Node) : LeadsAll [node] = node.Leads :=
  Relation.comp_eq

theorem leadsAll_append (first second : List Node) :
    LeadsAll (first ++ second) = Comp (LeadsAll first) (LeadsAll second) := by
  induction first with
  | nil => rw [List.nil_append, LeadsAll, Relation.eq_comp]
  | cons node first ih => rw [List.cons_append, LeadsAll, LeadsAll, ih, Relation.comp_assoc]

theorem leadsAll_parts (node : Node) : LeadsAll node.parts = node.Leads := by
  induction node with
  | cat first rest _ ih => rw [parts, LeadsAll, ih, Leads]
  | empty => rfl
  | _ => exact leadsAll_singleton _

theorem leads_ofParts (nodes : List Node) : (ofParts nodes).Leads = LeadsAll nodes := by
  fun_induction ofParts nodes with
  | case1 => rfl
  | case2 node => exact (leadsAll_singleton node).symm
  | case3 node rest _ ih => rw [Leads, ih, LeadsAll]

theorem leadsAll_joinText (node : Node) (rest : List Node) :
    LeadsAll (joinText node rest) = Comp node.Leads (LeadsAll rest) := by
  fun_cases joinText node rest with
  | case1 a b rest =>
    have happend : (text (a ++ b)).Leads = Comp (text a).Leads (text b).Leads := by
      funext s t
      exact propext spells_append
    rw [LeadsAll, LeadsAll, happend, Relation.comp_assoc]
  | case2 => rw [LeadsAll]

theorem leadsAll_foldr_joinText (nodes : List Node) : LeadsAll (nodes.foldr joinText []) = LeadsAll nodes := by
  induction nodes with
  | nil => rfl
  | cons node nodes ih => rw [List.foldr_cons, leadsAll_joinText, ih, LeadsAll]

/-- The normal form of a chain matches what its expressions match one after the other. -/
theorem leads_concat (nodes : List Node) : (concat nodes).Leads = LeadsAll nodes := by
  rw [concat, leads_ofParts, leadsAll_foldr_joinText]
  induction nodes with
  | nil => rfl
  | cons node nodes ih => rw [List.flatMap_cons, leadsAll_append, leadsAll_parts, ih, LeadsAll]

end Node

/-! ## Texts with a property -/

def Spelling (p : List Char → Prop) (s t : Spot) : Prop :=
  ∃ word, p word ∧ s.Spells word t

section Spelling

variable {p q : List Char → Prop} {body : Node} {set : Unicode.CharSet} {least : Nat} {greedy : Bool}

theorem spelling_congr (h : ∀ word, p word ↔ q word) : Spelling p = Spelling q :=
  congrArg Spelling (funext fun word => propext (h word))

theorem spelling_nil : Spelling (· = []) = Eq := by
  funext s t
  simp [Spelling, Spot.Spells]

theorem comp_spelling :
    Comp (Spelling p) (Spelling q) = Spelling fun word => ∃ u v, word = u ++ v ∧ p u ∧ q v := by
  funext s t
  refine propext ⟨?_, ?_⟩
  · rintro ⟨m, ⟨u, hu, hsm⟩, v, hv, hmt⟩
    exact ⟨u ++ v, ⟨u, v, rfl, hu, hv⟩, spells_append.mpr ⟨m, hsm, hmt⟩⟩
  · rintro ⟨_, ⟨u, v, rfl, hu, hv⟩, hst⟩
    obtain ⟨m, hsm, hmt⟩ := spells_append.mp hst
    exact ⟨m, ⟨u, hu, hsm⟩, v, hv, hmt⟩

theorem copies_spelling (n : Nat) : Copies (Spelling p) n =
    Spelling fun word => ∃ words : List (List Char), words.length = n ∧ (∀ w ∈ words, p w) ∧ word = words.flatten := by
  induction n with
  | zero =>
    rw [Copies, ← spelling_nil]
    exact spelling_congr fun word => by simp [List.length_eq_zero_iff]
  | succ n ih =>
    rw [Copies, ih, comp_spelling]
    refine spelling_congr fun word => ⟨?_, ?_⟩
    · rintro ⟨u, _, rfl, hu, words, rfl, hwords, rfl⟩
      exact ⟨u :: words, rfl, by simpa using ⟨hu, hwords⟩, rfl⟩
    · rintro ⟨words, hlength, hwords, rfl⟩
      obtain ⟨u, words, rfl⟩ := List.exists_cons_of_length_eq_add_one hlength
      exact ⟨u, words.flatten, rfl, hwords u List.mem_cons_self, words, Nat.succ.inj hlength,
        fun w hw => hwords w (List.mem_cons_of_mem _ hw), rfl⟩

theorem leads_text (word : List Char) : (Node.text word).Leads = Spelling (· = word) := by
  funext s t
  simp [Node.Leads, Spelling]

theorem leads_chars : (Node.chars set).Leads = Spelling fun word => ∃ c, set.contains c ∧ word = [c] := by
  funext s t
  refine propext ⟨?_, ?_⟩
  · rintro ⟨c, hc, hst⟩
    exact ⟨[c], ⟨c, hc, rfl⟩, hst⟩
  · rintro ⟨_, ⟨c, hc, rfl⟩, hst⟩
    exact ⟨c, hc, hst⟩

/-- At least some copies of texts with a property. -/
theorem leads_rep (h : body.Leads = Spelling p) : (Node.rep body least none greedy).Leads =
    Spelling fun word => ∃ words : List (List Char),
      least ≤ words.length ∧ (∀ w ∈ words, p w) ∧ word = words.flatten := by
  funext s t
  simp only [Node.Leads, h, copies_spelling]
  refine propext ⟨?_, ?_⟩
  · rintro ⟨more, -, word, ⟨words, hlength, hwords⟩, hst⟩
    exact ⟨word, ⟨words, by omega, hwords⟩, hst⟩
  · rintro ⟨word, ⟨words, hlength, hwords⟩, hst⟩
    exact ⟨words.length - least, by simp, word, ⟨words, by omega, hwords⟩, hst⟩

/-- At least some characters of a set. -/
theorem leads_rep_chars : (Node.rep (.chars set) least none greedy).Leads =
    Spelling fun word => least ≤ word.length ∧ ∀ c ∈ word, set.contains c := by
  rw [leads_rep leads_chars]
  refine spelling_congr fun word => ⟨?_, ?_⟩
  · rintro ⟨words, hlength, hwords, rfl⟩
    have hone (w : List Char) (hw : w ∈ words) : w.length = 1 := by
      obtain ⟨c, -, rfl⟩ := hwords w hw
      rfl
    constructor
    · rw [List.length_flatten, List.map_congr_left hone, List.map_const']
      simpa using hlength
    · intro c hc
      obtain ⟨w, hw, hcw⟩ := List.mem_flatten.mp hc
      obtain ⟨d, hd, rfl⟩ := hwords w hw
      obtain rfl := List.mem_singleton.mp hcw
      exact hd
  · rintro ⟨hlength, hset⟩
    refine ⟨word.map fun c => [c], by simpa using hlength, ?_, by simp [← List.flatMap_def]⟩
    intro w hw
    obtain ⟨c, hc, rfl⟩ := List.mem_map.mp hw
    exact ⟨c, hset c hc, rfl⟩

end Spelling

end TrafficPolicy.Regex
