import TrafficPolicy.Proofs.Regex.Reading
import TrafficPolicy.Proofs.Regex.Search
import TrafficPolicy.Proofs.Target.Division

/-!
# The expression for a name with stars

The text that is put together for a name is read as an expression, and each of its parts matches what the label
that it is written for takes of a domain. So the expression matches just the domains that can be divided among the
labels of the name.
-/

namespace TrafficPolicy

namespace Glob

open Regex (Node Writes Spelling)
open Unicode (CharSet)

variable {count index least : Nat} {label word : List Char}

/-! ## The nodes -/

def notPoint : CharSet :=
  (CharSet.single '.').complement

/-- Characters within a label, at least `least`. -/
def run (least : Nat) : Node :=
  .rep (.chars notPoint) least none true

def pointed : Node :=
  .concat [run 1, .text ['.']]

def charNode (c : Char) : Node :=
  if c = '*' then run 0 else .text [c]

def labelNodes (count index : Nat) (label : List Char) : List Node :=
  if label = ['*'] then
    if index = 0 then [.rep pointed 0 none true]
    else if index + 1 = count then [run 1]
    else [.rep pointed 1 none true]
  else label.map charNode ++ if index + 1 = count then [] else [.text ['.']]

theorem writes_run_zero : Writes 2 "[^.]*".toList [run 0] :=
  (Regex.writes_notPoint 0).star (by decide)

theorem writes_run_one : Writes 2 "[^.]+".toList [run 1] :=
  (Regex.writes_notPoint 0).plus (by decide)

theorem writes_point (room : Nat) : Writes room "\\.".toList [.text ['.']] :=
  Regex.writes_escape room ['.']

theorem writes_pointed : Writes 4 "(?:[^.]+\\.)".toList [pointed] :=
  (writes_run_one.append (writes_point 2)).group

theorem writes_label (label : List Char) :
    Writes 2 ("[^.]*".toList.intercalate ((Text.splitOn '*' label).map Regex.escape)) (label.map charNode) := by
  have htext : "[^.]*".toList.intercalate ((Text.splitOn '*' label).map Regex.escape) =
      label.flatMap fun c => if c = '*' then "[^.]*".toList else Regex.escape [c] := by
    have hescape (c : Char) : (if Regex.isMeta c then ['\\', c] else [c]) = Regex.escape [c] := by simp [Regex.escape]
    simp only [← hescape]
    exact Text.intercalate_splitOn _ _
  rw [htext, List.map_eq_flatMap]
  refine .flatMap fun c => ?_
  unfold charNode
  split
  · exact writes_run_zero
  · exact Regex.writes_escape_singleton 2 c

/-- The text for a label is read as its nodes. -/
theorem writes_labelExpression (count index : Nat) (label : List Char) :
    Writes 5 (labelExpression count index label) (labelNodes count index label) := by
  unfold labelExpression labelNodes
  split
  · split
    · exact writes_pointed.star (by decide)
    · split
      · exact writes_run_one.mono (by decide)
      · exact writes_pointed.plus (by decide)
  · have hlabel := (writes_label label).mono (show 2 ≤ 5 by decide)
    dsimp only
    split
    · rwa [List.append_nil]
    · exact hlabel.append (writes_point 5)

/-! ## What the nodes match -/

theorem contains_complement_single {c d : Char} (hpos : 0 < d.toNat) (hlt : d.toNat < 0xD7FF) :
    (CharSet.single d).complement.contains c ↔ c ≠ d := by
  have hmax : c.toNat ≤ CharSet.maxCode := by
    have hvalid : c.toNat < 0xD800 ∨ 0xDFFF < c.toNat ∧ c.toNat < 0x110000 := c.valid
    unfold CharSet.maxCode
    omega
  have hne : c ≠ d ↔ c.toNat ≠ d.toNat := not_congr Char.toNat_inj.symm
  have hranges : (CharSet.single d).complement.ranges = [(0, d.toNat - 1), (d.toNat + 1, CharSet.maxCode)] := by
    have hbefore : CharSet.before d.toNat = d.toNat - 1 := if_neg (by omega)
    have hafter : CharSet.after d.toNat = d.toNat + 1 := if_neg (by omega)
    have hlast : d.toNat < CharSet.maxCode := by
      unfold CharSet.maxCode
      omega
    simp [CharSet.complement, CharSet.single, CharSet.gapsAfter, hpos, hbefore, hafter, hlast]
  rw [CharSet.contains, CharSet.containsCode, hranges, hne]
  simp only [CharSet.containsFrom, if_neg (Nat.not_lt.mpr hmax)]
  split
  · rw [decide_eq_true_iff]
    omega
  · simp only [Nat.zero_le, decide_true, true_iff]
    omega

theorem forall_contains_complement_single {d : Char} (hpos : 0 < d.toNat) (hlt : d.toNat < 0xD7FF) :
    (∀ c ∈ word, (CharSet.single d).complement.contains c) ↔ d ∉ word := by
  simp only [contains_complement_single hpos hlt]
  exact ⟨fun h hmem => h d hmem rfl, fun h c hc hd => h (hd ▸ hc)⟩

theorem leads_run (least : Nat) : (run least).Leads = Spelling fun word => least ≤ word.length ∧ '.' ∉ word := by
  rw [run, Regex.leads_rep_chars]
  exact Regex.spelling_congr fun word =>
    and_congr_right fun _ => forall_contains_complement_single (by decide) (by decide)

theorem leads_pointed : pointed.Leads = Spelling fun word => ∃ item, (item ≠ [] ∧ '.' ∉ item) ∧ word = item ++ ['.'] := by
  rw [pointed, Node.leads_concat, Node.LeadsAll, Node.leadsAll_singleton, leads_run, Regex.leads_text,
    Regex.comp_spelling]
  refine Regex.spelling_congr fun word => ⟨?_, ?_⟩
  · rintro ⟨item, _, rfl, ⟨hlength, hpoint⟩, rfl⟩
    exact ⟨item, ⟨List.ne_nil_of_length_pos hlength, hpoint⟩, rfl⟩
  · rintro ⟨item, ⟨hne, hpoint⟩, rfl⟩
    exact ⟨item, ['.'], rfl, ⟨List.length_pos_iff.mpr hne, hpoint⟩, rfl⟩

/-- A text that a label takes, as it stands in a domain: a group of labels each of which a point follows, but for the
last point of the domain. -/
def LabelText (count index : Nat) (label word : List Char) : Prop :=
  ∃ group, Takes count index label group ∧ (∀ item ∈ group, '.' ∉ item) ∧
    (word ++ if index + 1 = count then ['.'] else []) = group.flatMap (· ++ ['.'])

theorem leads_rep_pointed (least : Nat) : (Node.rep pointed least none true).Leads =
    Spelling fun word => ∃ group : List (List Char), least ≤ group.length ∧ (∀ item ∈ group, item ≠ []) ∧
      (∀ item ∈ group, '.' ∉ item) ∧ word = group.flatMap (· ++ ['.']) := by
  rw [Regex.leads_rep leads_pointed]
  refine Regex.spelling_congr fun word => ⟨?_, ?_⟩
  · rintro ⟨words, hlength, hwords, rfl⟩
    choose! item hitem using hwords
    refine ⟨words.map item, by simpa using hlength, ?_, ?_, ?_⟩
    · simpa using fun word hword => (hitem word hword).1.1
    · simpa using fun word hword => (hitem word hword).1.2
    · rw [List.flatMap_map, List.flatMap_def, List.map_congr_left fun word hword => ((hitem word hword).2).symm, List.map_id']
  · rintro ⟨group, hlength, hne, hpoint, rfl⟩
    refine ⟨group.map (· ++ ['.']), by simpa using hlength, ?_, List.flatMap_def⟩
    intro w hw
    obtain ⟨item, hitem, rfl⟩ := List.mem_map.mp hw
    exact ⟨item, ⟨hne item hitem, hpoint item hitem⟩, rfl⟩

theorem leadsAll_label (h : '.' ∉ label) :
    Node.LeadsAll (label.map charNode) = Spelling fun word => Fills label word ∧ '.' ∉ word := by
  induction label with
  | nil =>
    rw [List.map_nil, Node.LeadsAll, ← Regex.spelling_nil]
    refine Regex.spelling_congr fun word => ⟨?_, ?_⟩
    · rintro rfl
      exact ⟨.nil, List.not_mem_nil⟩
    · rintro ⟨hfills, -⟩
      cases hfills
      rfl
  | cons c label ih =>
    simp only [List.mem_cons, not_or] at h
    rw [List.map_cons, Node.LeadsAll, ih h.2, charNode]
    split
    · rename_i hc
      subst hc
      rw [leads_run, Regex.comp_spelling]
      refine Regex.spelling_congr fun word => ?_
      rw [fills_star]
      constructor
      · rintro ⟨run, rest, rfl, ⟨-, hrun⟩, hfills, hrest⟩
        exact ⟨⟨run, rest, rfl, hfills⟩, by simp [hrun, hrest]⟩
      · rintro ⟨⟨run, rest, rfl, hfills⟩, hword⟩
        rw [List.mem_append, not_or] at hword
        exact ⟨run, rest, rfl, ⟨Nat.zero_le _, hword.1⟩, hfills, hword.2⟩
    · rename_i hc
      rw [Regex.leads_text, Regex.comp_spelling]
      refine Regex.spelling_congr fun word => ?_
      rw [fills_char hc]
      constructor
      · rintro ⟨_, rest, rfl, rfl, hfills, hrest⟩
        exact ⟨⟨rest, rfl, hfills⟩, by simp [h.1, hrest]⟩
      · rintro ⟨⟨rest, rfl, hfills⟩, hword⟩
        exact ⟨[c], rest, rfl, rfl, hfills, fun hmem => hword (List.mem_cons_of_mem _ hmem)⟩

/-- The nodes for a label match the texts that the label takes. -/
theorem leadsAll_labelNodes (count index : Nat) (hpoint : '.' ∉ label) (hstar : label = ['*'] → index = 0 → count ≠ 1) :
    Node.LeadsAll (labelNodes count index label) = Spelling (LabelText count index label) := by
  unfold labelNodes LabelText Takes
  by_cases hlabel : label = ['*']
  · simp only [if_pos hlabel]
    by_cases hfirst : index = 0
    · have hlast : index + 1 ≠ count := by
        have := hstar hlabel hfirst
        omega
      rw [if_pos hfirst, if_neg hlast, Node.leadsAll_singleton, leads_rep_pointed]
      simp [hfirst]
    · rw [if_neg hfirst]
      simp only [if_neg hfirst]
      by_cases hlast : index + 1 = count
      · simp only [if_pos hlast]
        rw [Node.leadsAll_singleton, leads_run]
        refine Regex.spelling_congr fun word => ⟨?_, ?_⟩
        · rintro ⟨hlength, hword⟩
          exact ⟨[word], ⟨word, rfl, List.ne_nil_of_length_pos hlength⟩, by simpa using hword, by simp⟩
        · rintro ⟨_, ⟨item, rfl, hne⟩, hitem, htext⟩
          obtain rfl : word = item := by simpa using htext
          exact ⟨List.length_pos_iff.mpr hne, by simpa using hitem⟩
      · simp only [if_neg hlast]
        rw [Node.leadsAll_singleton, leads_rep_pointed]
        refine Regex.spelling_congr fun word => exists_congr fun group => ?_
        rw [Nat.one_le_iff_ne_zero, ne_eq, List.length_eq_zero_iff, and_assoc, List.append_nil]
  · simp only [if_neg hlabel]
    by_cases hlast : index + 1 = count
    · simp only [if_pos hlast]
      rw [List.append_nil, leadsAll_label hpoint]
      refine Regex.spelling_congr fun word => ⟨?_, ?_⟩
      · rintro ⟨hfills, hword⟩
        exact ⟨[word], ⟨word, rfl, hfills⟩, by simpa using hword, by simp⟩
      · rintro ⟨_, ⟨item, rfl, hfills⟩, hitem, htext⟩
        obtain rfl : word = item := by simpa using htext
        exact ⟨hfills, by simpa using hitem⟩
    · simp only [if_neg hlast]
      rw [Node.leadsAll_append, leadsAll_label hpoint, Node.leadsAll_singleton, Regex.leads_text,
        Regex.comp_spelling]
      refine Regex.spelling_congr fun word => ⟨?_, ?_⟩
      · rintro ⟨item, _, rfl, ⟨hfills, hitem⟩, rfl⟩
        exact ⟨[item], ⟨item, rfl, hfills⟩, by simpa using hitem, by simp⟩
      · rintro ⟨_, ⟨item, rfl, hfills⟩, hitem, htext⟩
        exact ⟨item, ['.'], by simpa using htext, ⟨hfills, by simpa using hitem⟩, rfl⟩

theorem takes_ne_nil {group : List (List Char)} (h : Takes count index label group) (hindex : index ≠ 0) : group ≠ [] := by
  unfold Takes at h
  simp only [if_neg hindex] at h
  split at h
  · split at h
    · obtain ⟨item, rfl, -⟩ := h
      exact List.cons_ne_nil item []
    · exact h.1
  · obtain ⟨item, rfl, -⟩ := h
    exact List.cons_ne_nil item []

/-- A text that the labels from the one at `start` on take, as it stands in a domain. -/
def LabelTexts (count start : Nat) (labels : List (List Char)) (word : List Char) : Prop :=
  ∃ groups : List (List (List Char)),
    List.Forall₂ (fun label group => Takes count label.2 label.1 group) (labels.zipIdx start) groups ∧
    (∀ item ∈ groups.flatten, '.' ∉ item) ∧
    (word ++ if labels = [] then [] else ['.']) = groups.flatten.flatMap (· ++ ['.'])

theorem labelTexts_nil {start : Nat} : LabelTexts count start [] word ↔ word = [] := by
  simp [LabelTexts]

theorem labelTexts_singleton {start : Nat} (hcount : start + 1 = count) :
    LabelTexts count start [label] word ↔ LabelText count start label word := by
  simp only [LabelTexts, LabelText, List.zipIdx_cons, List.zipIdx_nil, List.forall₂_cons_left_iff,
    List.forall₂_nil_left_iff, if_neg (List.cons_ne_nil label []), if_pos hcount]
  constructor
  · rintro ⟨_, ⟨group, _, htakes, rfl, rfl⟩, hgroup, hword⟩
    exact ⟨group, htakes, by simpa using hgroup, by simpa using hword⟩
  · rintro ⟨group, htakes, hgroup, hword⟩
    exact ⟨[group], ⟨group, [], htakes, rfl, rfl⟩, by simpa using hgroup, by simpa using hword⟩

/-- The texts of two labels are put together at a point, since every label but the first one takes something. -/
theorem labelTexts_cons_cons {start : Nat} {next : List Char} {labels : List (List Char)} (hcount : start + 1 ≠ count) :
    LabelTexts count start (label :: next :: labels) word ↔
      ∃ u v, word = u ++ v ∧ LabelText count start label u ∧ LabelTexts count (start + 1) (next :: labels) v := by
  simp only [LabelTexts, LabelText, if_neg hcount, List.append_nil, if_neg (List.cons_ne_nil _ _)]
  constructor
  · rintro ⟨_, hforall, hgroups, hword⟩
    obtain ⟨group, groups, htakes, hrest, rfl⟩ := List.forall₂_cons_left_iff.mp hforall
    simp only [List.flatten_cons, List.mem_append, or_imp, forall_and] at hgroups
    rw [List.flatten_cons, List.flatMap_append] at hword
    have hne : groups.flatten ≠ [] := by
      obtain ⟨first, _, hfirst, -, rfl⟩ := List.forall₂_cons_left_iff.mp hrest
      exact List.append_ne_nil_of_left_ne_nil (takes_ne_nil hfirst (Nat.succ_ne_zero start)) _
    obtain ⟨text, htext⟩ := Text.exists_flatMap_eq_append '.' hne
    rw [htext, ← List.append_assoc] at hword
    exact ⟨_, text, List.append_cancel_right hword, ⟨group, htakes, hgroups.1, rfl⟩, groups, hrest, hgroups.2, htext.symm⟩
  · rintro ⟨u, v, rfl, ⟨group, htakes, hgroup, rfl⟩, groups, hforall, hgroups, hv⟩
    refine ⟨group :: groups, .cons htakes hforall, ?_, ?_⟩
    · intro item hitem
      rw [List.flatten_cons, List.mem_append] at hitem
      exact hitem.elim (hgroup item) (hgroups item)
    · rw [List.flatten_cons, List.flatMap_append, ← hv, List.append_assoc]

/-- The nodes for some labels match the texts of the groups that these take. -/
theorem leadsAll_labels (labels : List (List Char)) (start : Nat) (hcount : start + labels.length = count)
    (hpoint : ∀ label ∈ labels, '.' ∉ label) (hstar : labels = [['*']] → start ≠ 0) :
    Node.LeadsAll ((labels.zipIdx start).flatMap fun label => labelNodes count label.2 label.1) =
      Spelling (LabelTexts count start labels) := by
  induction labels generalizing start with
  | nil =>
    rw [List.zipIdx_nil, List.flatMap_nil, Node.LeadsAll, ← Regex.spelling_nil]
    exact Regex.spelling_congr fun word => labelTexts_nil.symm
  | cons label labels ih =>
    rw [List.length_cons] at hcount
    have hlabel : Node.LeadsAll (labelNodes count start label) = Spelling (LabelText count start label) := by
      refine leadsAll_labelNodes count start (hpoint label List.mem_cons_self) ?_
      rintro rfl rfl rfl
      obtain rfl : labels = [] := List.eq_nil_of_length_eq_zero (by omega)
      exact hstar rfl rfl
    have hlabels := ih (start + 1) (by omega) (fun label hmem => hpoint label (List.mem_cons_of_mem _ hmem)) (by simp)
    rw [List.zipIdx_cons, List.flatMap_cons, Node.leadsAll_append, hlabel, hlabels, Regex.comp_spelling]
    refine Regex.spelling_congr fun word => ?_
    cases labels with
    | nil =>
      simp only [labelTexts_nil, labelTexts_singleton hcount]
      constructor
      · rintro ⟨u, _, rfl, hu, rfl⟩
        rwa [List.append_nil]
      · exact fun hword => ⟨word, [], (List.append_nil word).symm, hword, rfl⟩
    | cons next labels =>
      rw [List.length_cons] at hcount
      exact (labelTexts_cons_cons (by omega)).symm

/-! ## The whole expression -/

/-- An expression between the two ends of a text matches the texts that its nodes spell. -/
theorem isMatch_anchored {e : Regex.Expression} {nodes : List Node} {p : List Char → Prop}
    (he : e.body = .chain ([.look .textStart] ++ nodes ++ [.look .textEnd])) (hnodes : Node.LeadsAll nodes = Spelling p)
    (text : List Char) : e.isMatch text ↔ p text := by
  rw [Regex.isMatch_iff, he, Node.leads_chain, List.append_assoc, Node.leadsAll_append, Node.leadsAll_append, hnodes]
  simp only [Node.LeadsAll, Relation.comp_eq]
  constructor
  · rintro ⟨s, t, hs, _, ⟨hstart, rfl⟩, t, ⟨word, hword, hspells⟩, hend, rfl⟩
    obtain rfl := Regex.eq_of_precedes hs (Option.isNone_iff_eq_none.mp hstart)
    have hrest : t.rest = [] := by simpa [Regex.Look.holds] using hend
    have htext : text = word := Regex.spells_to_end.mp ⟨t, hspells, hrest⟩
    exact htext ▸ hword
  · intro htext
    obtain ⟨t, hspells, hrest⟩ := Regex.spells_rest ⟨none, text⟩
    exact ⟨⟨none, text⟩, t, ⟨[], rfl⟩, _, ⟨rfl, rfl⟩, t, ⟨text, htext, hspells⟩, by simp [Regex.Look.holds, hrest], rfl⟩

/-- The expression for a name is one, and it matches the domains that can be divided among the labels of the name. The
one for a single star matches the texts of one line. -/
theorem read?_expression (name : List Char) :
    ∃ e, Regex.Expression.read? (String.ofList (expression name)) = some e ∧
      ∀ domain, e.isMatch domain ↔ if name = ['*'] then '\n' ∉ domain else Divides name domain := by
  by_cases hname : name = ['*']
  · have hwrites : Writes 5 (expression name) ([.look .textStart] ++
        [.rep (.chars (CharSet.single '\n').complement) 0 none true] ++ [.look .textEnd]) := by
      rw [expression, if_pos hname]
      exact ((Regex.writes_textStart 5).append (((Regex.writes_dot 4).star (by decide)))).append (Regex.writes_textEnd 5)
    obtain ⟨e, hread, hbody⟩ := hwrites.read? (by decide)
    refine ⟨e, hread, fun domain => ?_⟩
    rw [isMatch_anchored hbody (by rw [Node.leadsAll_singleton, Regex.leads_rep_chars]),
      if_pos hname, forall_contains_complement_single (by decide) (by decide)]
    simp
  · have hwrites : Writes 5 (expression name) ([.look .textStart] ++
        ((labels name).zipIdx.flatMap fun label => labelNodes (labels name).length label.2 label.1) ++
        [.look .textEnd]) := by
      rw [expression, if_neg hname]
      dsimp only
      rw [List.mapIdx_eq_zipIdx_map, ← List.flatMap_def]
      exact ((Regex.writes_textStart 5).append (.flatMap fun label => writes_labelExpression _ _ _)).append
        (Regex.writes_textEnd 5)
    obtain ⟨e, hread, hbody⟩ := hwrites.read? (by decide)
    refine ⟨e, hread, fun domain => ?_⟩
    have hstar : labels name ≠ [['*']] := by
      intro h
      exact hname (List.append_cancel_right ((Text.splitOn_eq_iff.mp h).2.trans rfl))
    rw [isMatch_anchored hbody (leadsAll_labels (labels name) 0 (Nat.zero_add _)
      (fun label => Text.not_mem_of_mem_splitOn) fun h => absurd h hstar), if_neg hname]
    unfold Divides
    refine exists_congr fun groups => ?_
    have hne : labels name ≠ [] := Text.splitOn_ne_nil '.' name
    have hlabels := @Text.splitOn_eq_iff '.' domain groups.flatten
    rw [if_neg hne, ← hlabels, and_comm, eq_comm (a := groups.flatten)]
    rfl

end Glob

end TrafficPolicy
