import Mathlib.Logic.Relation
import TrafficPolicy.Proofs.Regex.Meaning
import TrafficPolicy.Regex.Reader

/-!
# Expressions that are put together

An expression is put together from texts each of which stands for some nodes. The reader takes such a text as these
nodes whatever stands before and after it, so that the whole text is read as the nodes of its parts one after the
other.
-/

namespace TrafficPolicy.Regex

open Unicode (CharSet)

variable {p q : Progress} {cs cs' rest : List Char} {result : Option Progress} {room : Nat} {body : Node}
  {nodes nodes' : List Node} {parts : List (Node × Nat)}

/-! ## Steps of the reader -/

/-- What the reader makes of a text if it has steps enough. -/
def ReadsTo (p : Progress) (cs : List Char) (result : Option Progress) : Prop :=
  ∀ steps, cs.length < steps → readParts steps p cs = result

/-- The reader gets from one progress to another by taking a text. After it stands no mark that would make a repetition
a lazy one. -/
def Takes (p : Progress) (cs : List Char) (q : Progress) : Prop :=
  ∀ rest result, rest.head? ≠ some '?' → ReadsTo q rest result → ReadsTo p (cs ++ rest) result

theorem readsTo_nil (p : Progress) : ReadsTo p [] (some p) := by
  intro steps hsteps
  obtain ⟨steps, rfl⟩ := Nat.exists_eq_succ_of_ne_zero (Nat.ne_of_gt hsteps)
  cases hverbose : p.settings.verbose <;> simp [readParts, Settings.skip, skipBlanks]

theorem readsTo_of_readPart {c : Char} (hp : p.settings = {}) (h : readPart p c cs = some (q, rest))
    (hlength : rest.length ≤ cs.length) (hrest : ReadsTo q rest result) : ReadsTo p (c :: cs) result := by
  intro steps hsteps
  obtain ⟨steps, rfl⟩ := Nat.exists_eq_succ_of_ne_zero (Nat.ne_of_gt (Nat.zero_lt_of_lt hsteps))
  have hskip : p.settings.skip (c :: cs) = c :: cs := by simp [hp, Settings.skip, skipBlanks]
  rw [readParts, hskip]
  simp only [h]
  exact hrest steps (by rw [List.length_cons] at hsteps; omega)

theorem Takes.nil : Takes p [] p :=
  fun _ _ _ h => h

theorem head?_append (h : cs.head? ≠ some '?') (h' : cs'.head? ≠ some '?') : (cs ++ cs').head? ≠ some '?' := by
  cases cs with
  | nil => exact h'
  | cons c cs => exact h

theorem Takes.append {r : Progress} (h : Takes p cs q) (h' : Takes q cs' r) (hmark : cs'.head? ≠ some '?') :
    Takes p (cs ++ cs') r := by
  intro rest result hrest hread
  rw [List.append_assoc]
  exact h _ _ (head?_append hmark hrest) (h' rest result hrest hread)

/-! ## Texts that stand for nodes -/

/-- The progress after some nodes, each of which is so many levels deep. -/
def Progress.pushAll (p : Progress) (parts : List (Node × Nat)) : Progress :=
  parts.foldl (fun p part => p.push (.node part.1 part.2)) p

/-- A text is read as some nodes that are at most `room` levels deep, wherever so many groups may still be opened. It
does not begin with the mark of a lazy repetition, so it may follow one. -/
structure Writes (room : Nat) (cs : List Char) (nodes : List Node) : Prop where
  unmarked : cs.head? ≠ some '?'
  read : ∃ parts : List (Node × Nat), parts.map Prod.fst = nodes ∧ (∀ part ∈ parts, part.2 ≤ room) ∧
    ∀ p : Progress, p.settings = {} → p.around.length + room ≤ maxDepth → Takes p cs (p.pushAll parts)

/-- Only the parts of the current alternative change. -/
theorem pushAll_eq (p : Progress) (parts : List (Node × Nat)) : p.pushAll parts =
    { p with frame := { p.frame with
      parts := (parts.map fun part => Part.node part.1 part.2).reverse ++ p.frame.parts } } := by
  induction parts generalizing p with
  | nil => rfl
  | cons part parts ih =>
    rw [Progress.pushAll, List.foldl_cons, ← Progress.pushAll, ih]
    simp [Progress.push]

theorem Writes.nil (room : Nat) : Writes room [] [] :=
  ⟨by simp, [], rfl, by simp, fun _ _ _ => .nil⟩

theorem Writes.append (h : Writes room cs nodes) (h' : Writes room cs' nodes') :
    Writes room (cs ++ cs') (nodes ++ nodes') := by
  obtain ⟨hmark, parts, rfl, hdepth, htakes⟩ := h
  obtain ⟨hmark', parts', rfl, hdepth', htakes'⟩ := h'
  refine ⟨head?_append hmark hmark', parts ++ parts', List.map_append, ?_, fun p hp hroom => ?_⟩
  · intro part hpart
    exact (List.mem_append.mp hpart).elim (hdepth part) (hdepth' part)
  · have happend : p.pushAll (parts ++ parts') = (p.pushAll parts).pushAll parts' := List.foldl_append
    rw [happend]
    refine (htakes p hp hroom).append (htakes' _ ?_ ?_) hmark'
    · rw [pushAll_eq]
      exact hp
    · rw [pushAll_eq]
      exact hroom

theorem Writes.mono {more : Nat} (h : Writes room cs nodes) (hroom : room ≤ more) : Writes more cs nodes := by
  obtain ⟨hmark, parts, hnodes, hdepth, htakes⟩ := h
  exact ⟨hmark, parts, hnodes, fun part hpart => Nat.le_trans (hdepth part hpart) hroom,
    fun p hp hmore => htakes p hp (by omega)⟩

theorem Writes.flatMap {α : Type} {items : List α} {text : α → List Char} {nodesOf : α → List Node}
    (h : ∀ item, Writes room (text item) (nodesOf item)) : Writes room (items.flatMap text) (items.flatMap nodesOf) := by
  induction items with
  | nil => exact .nil room
  | cons item items ih => exact (h item).append ih

theorem writes_of_readPart {c : Char} {depth : Nat} (hdepth : depth ≤ room) (hmark : c ≠ '?')
    (h : ∀ p : Progress, p.settings = {} → ∀ rest, readPart p c (cs ++ rest) = some (p.push (.node body depth), rest)) :
    Writes room (c :: cs) [body] :=
  ⟨by simpa using hmark, [(body, depth)], rfl, by simpa using hdepth,
    fun p hp _ rest _ _ hread => readsTo_of_readPart hp (h p hp rest) (by simp) hread⟩

theorem literal_eq (c : Char) : Settings.literal {} c = .text [c] := by
  simp [Settings.literal, Settings.fold, Node.ofSet, CharSet.single, CharSet.single?]

theorem of_isMeta {c : Char} (h : isMeta c) : c.isDigit = false ∧ "dDsSwW".toList.contains c = false := by
  have hall : "\\.+*?()|[]\x7b\x7d^$#&-~".toList.all fun c => !c.isDigit && !"dDsSwW".toList.contains c := by decide
  have hc := List.all_eq_true.mp hall c (List.contains_iff_mem.mp h)
  rwa [Bool.and_eq_true, Bool.not_eq_true', Bool.not_eq_true'] at hc

theorem writes_escape_singleton (room : Nat) (c : Char) : Writes room (escape [c]) [.text [c]] := by
  by_cases hmeta : isMeta c
  · have hescape : escape [c] = ['\\', c] := by simp [escape, hmeta]
    rw [hescape]
    refine writes_of_readPart (Nat.zero_le room) (by decide) fun p hp rest => ?_
    obtain ⟨hdigit, hletter⟩ := of_isMeta hmeta
    have hread : readEscape {} (c :: rest) = some (.literal c, rest) := by
      simp only [readEscape, hdigit, hletter, hmeta, Bool.false_eq_true, if_false, Bool.true_or, if_true]
    simp only [List.singleton_append, readPart, hp, hread, literal_eq]
    rfl
  · have hescape : escape [c] = [c] := by simp [escape, hmeta]
    rw [hescape]
    have hmark : c ≠ '?' := fun hc => hmeta (hc ▸ rfl)
    refine writes_of_readPart (Nat.zero_le room) hmark fun p hp rest => ?_
    unfold readPart
    rw [hp, List.nil_append]
    split
    split <;> first | exact absurd rfl hmeta | exact congrArg (fun node => some (p.leaf node, rest)) (literal_eq c)

/-- With backslashes where they are needed, a text stands for its characters. -/
theorem writes_escape (room : Nat) (word : List Char) : Writes room (escape word) (word.map fun c => .text [c]) := by
  have hescape : escape word = word.flatMap fun c => escape [c] := by simp [escape]
  rw [hescape, List.map_eq_flatMap]
  exact .flatMap (writes_escape_singleton room)

theorem writes_textStart (room : Nat) : Writes room "^".toList [.look .textStart] := by
  change Writes room ['^'] _
  refine writes_of_readPart (Nat.zero_le room) (by decide) fun p hp rest => ?_
  simp [readPart, hp, Settings.startLook, Progress.leaf]

theorem writes_textEnd (room : Nat) : Writes room "$".toList [.look .textEnd] := by
  change Writes room ['$'] _
  refine writes_of_readPart (Nat.zero_le room) (by decide) fun p hp rest => ?_
  simp [readPart, hp, Settings.endLook, Progress.leaf]

theorem writes_dot (room : Nat) : Writes room ".".toList [.chars (CharSet.single '\n').complement] := by
  change Writes room ['.'] _
  refine writes_of_readPart (Nat.zero_le room) (by decide) fun p hp rest => ?_
  simp [readPart, hp, Settings.dot?, Progress.leaf]

/-- The set of all characters but the point. -/
theorem writes_notPoint (room : Nat) : Writes (room + 1) "[^.]".toList [.chars (CharSet.single '.').complement] := by
  change Writes (room + 1) ['[', '^', '.', ']'] _
  refine writes_of_readPart (Nat.le_add_left 1 room) (by decide) fun p hp rest => ?_
  have hset : CharSet.ofRanges [(0x2E, 0x2E)] = .single '.' := by
    simp [CharSet.ofRanges]
    rfl
  have hnode : Node.ofSet (CharSet.ofRanges [(0x2E, 0x2E)]).complement = .chars (CharSet.single '.').complement := by
    rw [hset]
    rfl
  rw [← hnode]
  unfold readPart
  rw [hp]
  rfl

/-! ## Repetitions and groups -/

theorem takeLazy_eq (h : rest.head? ≠ some '?') : takeLazy rest = (false, rest) := by
  unfold takeLazy
  split
  · exact absurd rfl h
  · rfl

/-- A node under a repetition that is marked by one character. -/
theorem Writes.repeated {mark : Char} {least : Nat} (h : Writes room cs [body]) (hroom : room < maxDepth)
    (hmark : mark ≠ '?')
    (hread : ∀ p cs, readPart p mark cs =
      (p.repeat? least none (takeLazy cs).1).map fun p => (p, (takeLazy cs).2)) :
    Writes (room + 1) (cs ++ [mark]) [body.repeated least none true] := by
  obtain ⟨hstart, parts, hnodes, hdepth, htakes⟩ := h
  obtain ⟨⟨body, depth⟩, rfl, hbody⟩ := List.map_eq_singleton_iff.mp hnodes
  obtain rfl : body = _ := hbody
  have hdepth : depth ≤ room := hdepth _ List.mem_cons_self
  refine ⟨head?_append hstart (by simpa using hmark), [(body.repeated least none true, depth + 1)], rfl,
    by simpa using hdepth, fun p hp hmore => ?_⟩
  refine (htakes p hp (by omega)).append ?_ (by simpa using hmark)
  intro rest result hrest hresult
  rw [List.singleton_append]
  refine readsTo_of_readPart hp ?_ (Nat.le_refl _) hresult
  rw [hread, takeLazy_eq hrest]
  have hdeep : ¬maxDepth ≤ depth := by omega
  simp [Progress.repeat?, Progress.pushAll, Progress.push, hdeep, hp]

/-- Any number of copies, and as many as there can be. -/
theorem Writes.star (h : Writes room cs [body]) (hroom : room < maxDepth) :
    Writes (room + 1) (cs ++ "*".toList) [body.repeated 0 none true] :=
  h.repeated hroom (by decide) fun p cs => by simp [readPart, Option.map_eq_bind]; rfl

/-- At least one copy, and as many as there can be. -/
theorem Writes.plus (h : Writes room cs [body]) (hroom : room < maxDepth) :
    Writes (room + 1) (cs ++ "+".toList) [body.repeated 1 none true] :=
  h.repeated hroom (by decide) fun p cs => by simp [readPart, Option.map_eq_bind]; rfl

/-- Nodes one after the other, as the reader puts them together. -/
def Node.chain : List Node → Node
  | [] => .empty
  | [node] => node
  | nodes => .concat nodes

theorem Node.leads_chain (nodes : List Node) : (chain nodes).Leads = LeadsAll nodes := by
  unfold chain
  split
  · rfl
  · exact (leadsAll_singleton _).symm
  · exact leads_concat _

theorem foldl_max_le {n : Nat} {ns : List Nat} (hn : n ≤ room) (h : ∀ m ∈ ns, m ≤ room) : ns.foldl max n ≤ room := by
  induction ns generalizing n with
  | nil => exact hn
  | cons m ns ih =>
    exact ih (Nat.max_le.mpr ⟨hn, h m List.mem_cons_self⟩) fun k hk => h k (List.mem_cons_of_mem _ hk)

theorem concat_eq (h : ∀ part ∈ parts, part.2 ≤ room) :
    ∃ depth ≤ room + 1,
      Part.concat (parts.map fun part => .node part.1 part.2) = .node (.chain (parts.map Prod.fst)) depth := by
  have hbodies : (parts.map fun part => Part.node part.1 part.2).map Part.body = parts.map Prod.fst := by
    rw [List.map_map]
    rfl
  have hdeepest : Part.deepest (parts.map fun part => .node part.1 part.2) ≤ room := by
    refine foldl_max_le (Nat.zero_le room) fun depth hdepth => ?_
    simp only [List.map_map, List.mem_map] at hdepth
    obtain ⟨part, hpart, rfl⟩ := hdepth
    exact h part hpart
  obtain _ | ⟨first, _ | ⟨second, parts⟩⟩ := parts
  · exact ⟨0, Nat.zero_le _, rfl⟩
  · exact ⟨first.2, Nat.le_succ_of_le (h first List.mem_cons_self), rfl⟩
  · refine ⟨_, Nat.succ_le_succ hdeepest, ?_⟩
    rw [← hbodies]
    rfl

/-- What a frame holds into which nothing but some nodes has been read. -/
theorem content_pushAll (parts : List (Node × Nat)) (h : p.frame.parts = []) (h' : p.frame.alternatives = []) :
    (p.pushAll parts).frame.content = Part.concat (parts.map fun part => .node part.1 part.2) := by
  rw [pushAll_eq]
  simp [Frame.content, Frame.current, Part.alternate, h, h']

/-- Nodes in a group without an index are one node. -/
theorem Writes.group (h : Writes room cs nodes) : Writes (room + 2) ("(?:".toList ++ cs ++ ")".toList) [.chain nodes] := by
  obtain ⟨hmark, parts, rfl, hdepth, htakes⟩ := h
  obtain ⟨depth, hle, hconcat⟩ := concat_eq hdepth
  refine ⟨by simp, [(.chain (parts.map Prod.fst), depth + 1)], rfl, by simpa using Nat.succ_le_succ hle,
    fun p hp hroom => ?_⟩
  let inner : Progress :=
    { p with settings := {}, frame := { index := none, outer := {} }, around := p.frame :: p.around }
  have hopen : Takes p "(?:".toList inner := by
    intro rest result _ hread
    have hgroup : readPart p '(' ("?:".toList ++ rest) = some (inner, rest) := by
      have hdeep : ¬maxDepth ≤ p.around.length := by omega
      simp [readPart, readGroup, hp, Settings.skip, skipBlanks, readSettings, Progress.openGroup, hdeep, inner]
    exact readsTo_of_readPart hp hgroup (by simp; omega) hread
  have hclose : Takes (inner.pushAll parts) ")".toList (p.push (.node (.chain (parts.map Prod.fst)) (depth + 1))) := by
    intro rest result _ hread
    have hcontent := content_pushAll (p := inner) parts rfl rfl
    rw [hconcat] at hcontent
    have hdeep : ¬maxDepth < depth + 1 := by omega
    have hgroup : readPart (inner.pushAll parts) ')' rest =
        some (p.push (.node (.chain (parts.map Prod.fst)) (depth + 1)), rest) := by
      rw [pushAll_eq] at hcontent ⊢
      simp only [readPart, Progress.closeGroup, Frame.group, hcontent, Part.body, Part.depth]
      simp only [inner, if_neg hdeep, Option.map_some, ← hp]
    refine readsTo_of_readPart ?_ hgroup (Nat.le_refl _) hread
    rw [pushAll_eq]
  exact (hopen.append (htakes inner rfl (by simp [inner]; omega)) hmark).append hclose (by decide)

/-- A text that stands for some nodes is read as these nodes one after the other. -/
theorem Writes.read? (h : Writes room cs nodes) (hroom : room < maxDepth) :
    ∃ e, Expression.read? (String.ofList cs) = some e ∧ e.body = .chain nodes := by
  obtain ⟨-, parts, rfl, hdepth, htakes⟩ := h
  have hread := htakes {} rfl (by simpa using Nat.le_of_lt hroom) [] _ (by simp) (readsTo_nil _) (cs.length + 1) (by simp)
  rw [List.append_nil] at hread
  obtain ⟨depth, hle, hconcat⟩ := concat_eq hdepth
  have hcontent := content_pushAll (p := {}) parts rfl rfl
  rw [hconcat] at hcontent
  have haround : (Progress.pushAll {} parts).around = [] := by rw [pushAll_eq]
  let q := Progress.pushAll {} parts
  refine ⟨⟨String.ofList cs, .chain (parts.map Prod.fst), q.groups, q.names⟩, ?_, rfl⟩
  unfold Expression.read?
  simp only [String.toList_ofList, hread, hcontent, haround, Option.bind_eq_bind, Option.bind_some]
  have hdeep : depth ≤ maxDepth := Nat.le_trans hle hroom
  simp [Part.depth, hdeep, Part.body, q]

end TrafficPolicy.Regex
