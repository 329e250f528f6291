import TrafficPolicy.Proofs.Text.Escapes
import TrafficPolicy.Proofs.Text.Lines
import TrafficPolicy.Target.Url

/-!
# Urls as they are written

A url is written with or without its scheme, and the pairs of its query with any spelling. Such a text is read back
in the same parts, with one exception: a domain and a path that begin like a scheme are taken for the scheme where
the scheme is left out.
-/

namespace TrafficPolicy.Url

open Text (Edged isBlank joinWith)
open Text.Percent (Spells SpellsChar)

/-- A domain and a path that can be told apart where they are written one after the other. -/
structure Writable (domain path : String) : Prop where
  edged : Edged domain.toList
  inside : ∀ c ∈ domain.toList, endsDomain c = false
  slash : ∀ c ∈ path.toList.head?, c = '/'
  unmarked : '?' ∉ path.toList
  last : ∀ c ∈ path.toList.getLast?, isBlank c = false

structure SpellsPair (pair spelled : String × String) : Prop where
  key : Spells pair.1.toList spelled.1.toList
  value : Spells pair.2.toList spelled.2.toList

def writePair (spelled : String × String) : String :=
  spelled.1 ++ "=" ++ spelled.2

/-- Writes a query whose pairs are spelled; no mark is written where there are no pairs. -/
def writeQuery (spelled : List (String × String)) : String :=
  if spelled.isEmpty then "" else "?" ++ joinWith "&" (spelled.map writePair)

def write (scheme : Bool) (domain path : String) (spelled : List (String × String)) : String :=
  (if scheme then "http://" else "") ++ domain ++ path ++ writeQuery spelled

variable {c : Char} {cs rest : List Char} {scheme : Bool} {domain path : String} {pair spelledPair : String × String}
  {query spelled : List (String × String)}

/-! ## The query -/

theorem SpellsPair.mem (h : SpellsPair pair spelledPair) (hc : c ∈ (writePair spelledPair).toList) :
    isBlank c = false ∧ c ≠ '&' := by
  simp only [writePair, String.toList_append, List.mem_append] at hc
  rcases hc with (hc | hc) | hc
  · have hmem := h.key.mem hc
    simp_all
  · obtain rfl : c = '=' := List.mem_singleton.mp hc
    decide
  · have hmem := h.value.mem hc
    simp_all

theorem SpellsPair.read (h : SpellsPair pair spelledPair) : readPair (writePair spelledPair).toList = pair := by
  have hkey : '=' ∉ spelledPair.1.toList := fun hmem => (h.key.mem hmem).2 (by decide)
  have hwritten : (writePair spelledPair).toList = spelledPair.1.toList ++ '=' :: spelledPair.2.toList := by
    simp [writePair]
  rw [readPair, hwritten, Text.splitOnce_append hkey]
  simp only [h.key.decodeComponent, h.value.decodeComponent, String.ofList_toList]

theorem writePair_ne_nil (spelledPair : String × String) : (writePair spelledPair).toList ≠ [] := by
  simp [writePair]

/-- A written query is empty or begins with its mark. -/
theorem writeQuery_eq (spelled : List (String × String)) :
    (writeQuery spelled).toList =
      if spelled = [] then [] else '?' :: (joinWith "&" (spelled.map writePair)).toList := by
  cases spelled with
  | nil => rfl
  | cons first others => simp [writeQuery]

theorem writeQuery_mem (h : List.Forall₂ SpellsPair query spelled) (hc : c ∈ (writeQuery spelled).toList) :
    isBlank c = false := by
  rw [writeQuery_eq] at hc
  split at hc
  · cases hc
  · rcases List.mem_cons.mp hc with rfl | hc
    · decide
    · rcases Text.mem_joinWith hc with hc | ⟨piece, hpiece, hc⟩
      · obtain rfl : c = '&' := List.mem_singleton.mp hc
        decide
      · obtain ⟨spelledPair, hspelled, rfl⟩ := List.mem_map.mp hpiece
        obtain ⟨pair, -, hpair⟩ := Text.exists_of_forall₂ h.flip spelledPair hspelled
        exact (hpair.mem hc).1

/-- Cutting a query and reading its pieces gives the pairs that were spelled, in their order. -/
theorem readQuery_joined (h : List.Forall₂ SpellsPair query spelled) (hne : spelled ≠ []) :
    readQuery (joinWith "&" (spelled.map writePair)).toList = query := by
  have hpieces : Text.splitOn '&' (joinWith "&" (spelled.map writePair)).toList =
      spelled.map fun spelledPair => (writePair spelledPair).toList := by
    refine Text.splitOn_joinWith hne ?_
    intro spelledPair hspelled hmem
    obtain ⟨pair, -, hpair⟩ := Text.exists_of_forall₂ h.flip spelledPair hspelled
    exact (hpair.mem hmem).2 rfl
  have hkept : ∀ piece ∈ spelled.map (fun spelledPair => (writePair spelledPair).toList), !piece.isEmpty := by
    intro piece hpiece
    obtain ⟨spelledPair, -, rfl⟩ := List.mem_map.mp hpiece
    simpa using writePair_ne_nil spelledPair
  rw [readQuery, hpieces, List.filter_eq_self.mpr hkept, List.map_map]
  clear hpieces hkept hne
  induction h with
  | nil => rfl
  | cons hpair _ ih => rw [List.map_cons, ih, Function.comp_apply, hpair.read]

/-- A text without a question mark is told apart from the query after it, and the query is read back. -/
theorem cut_writeQuery (hmark : '?' ∉ cs) (h : List.Forall₂ SpellsPair query spelled) :
    ∃ text, (Text.splitOnce '?' (cs ++ (writeQuery spelled).toList)).getD (cs ++ (writeQuery spelled).toList, []) =
      (cs, text) ∧ readQuery text = query := by
  rw [writeQuery_eq]
  by_cases hnone : spelled = []
  · subst hnone
    cases h
    rw [if_pos rfl, List.append_nil, Text.splitOnce_of_not_mem hmark]
    exact ⟨[], rfl, rfl⟩
  · rw [if_neg hnone, Text.splitOnce_append hmark]
    exact ⟨_, rfl, readQuery_joined h hnone⟩

theorem writeQuery_stops : ∀ c ∈ (writeQuery spelled).toList.head?, c = '?' := by
  intro c hc
  rw [writeQuery_eq] at hc
  split at hc
  · cases hc
  · exact (Option.some.inj hc).symm

/-! ## The parts -/

/-- The parts of a text whose scheme has been dropped. -/
def parts (text : List Char) : Url :=
  let domain := text.takeWhile fun c => !endsDomain c
  let rest := text.dropWhile fun c => !endsDomain c
  let cut := (Text.splitOnce '?' rest).getD (rest, [])
  { domain := if domain.isEmpty then none else some (String.ofList domain)
    path := String.ofList cut.1
    query := readQuery cut.2 }

theorem read_eq_parts {text : String} (h : Edged text.toList) :
    read text = parts ((Text.stripStart? "http://".toList text.toList).getD text.toList) := by
  rw [read, h.trim_eq]
  rfl

/-- Without a question mark, all that follows the domain is the path, and a written query is read back. -/
theorem parts_append (hmark : '?' ∉ cs) (h : List.Forall₂ SpellsPair query spelled) :
    parts (cs ++ (writeQuery spelled).toList) =
      { domain := if (cs.takeWhile fun c => !endsDomain c).isEmpty then none
          else some (String.ofList (cs.takeWhile fun c => !endsDomain c))
        path := String.ofList (cs.dropWhile fun c => !endsDomain c)
        query := query } := by
  have hstop : ∀ c ∈ (writeQuery spelled).toList.head?, (!endsDomain c) = false := by
    intro c hc
    rw [writeQuery_stops c hc]
    rfl
  have hpath : '?' ∉ cs.dropWhile fun c => !endsDomain c :=
    fun hmem => hmark ((List.dropWhile_suffix _).subset hmem)
  obtain ⟨text, hcut, hread⟩ := cut_writeQuery hpath h
  rw [parts, Text.takeWhile_append_stop hstop, Text.dropWhile_append_stop hstop]
  simp only [hcut, hread]

section
variable (hw : Writable domain path)
include hw

theorem Writable.unmarked_text : '?' ∉ domain.toList ++ path.toList := by
  rw [List.mem_append, not_or]
  refine ⟨fun hmem => ?_, hw.unmarked⟩
  have hinside := hw.inside '?' hmem
  cases hinside

/-- What stands in front of the first slash or question mark is the domain. -/
theorem Writable.takeWhile_eq (hrest : ∀ c ∈ rest.head?, endsDomain c = true) :
    (domain.toList ++ rest).takeWhile (fun c => !endsDomain c) = domain.toList := by
  rw [Text.takeWhile_append_stop fun c hc => by simp [hrest c hc], List.takeWhile_eq_self_iff]
  intro c hc
  rw [hw.inside c hc]
  rfl

theorem Writable.dropWhile_eq (hrest : ∀ c ∈ rest.head?, endsDomain c = true) :
    (domain.toList ++ rest).dropWhile (fun c => !endsDomain c) = rest := by
  rw [Text.dropWhile_append_stop fun c hc => by simp [hrest c hc], List.dropWhile_eq_nil_iff.mpr, List.nil_append]
  intro c hc
  rw [hw.inside c hc]
  rfl

theorem Writable.path_stops : ∀ c ∈ path.toList.head?, endsDomain c = true := by
  intro c hc
  rw [hw.slash c hc]
  rfl

theorem Writable.rest_stops : ∀ c ∈ (path.toList ++ (writeQuery spelled).toList).head?, endsDomain c = true := by
  intro c hc
  cases hpath : path.toList with
  | nil =>
    rw [hpath] at hc
    rw [writeQuery_stops c hc]
    rfl
  | cons d others =>
    rw [hpath] at hc
    exact hw.path_stops c (hpath ▸ hc)

theorem Writable.parts_eq (hq : List.Forall₂ SpellsPair query spelled) :
    parts (domain.toList ++ path.toList ++ (writeQuery spelled).toList) =
      { domain := some domain, path := path, query := query } := by
  have hne : ¬ domain.toList.isEmpty := by simpa using hw.edged.nonempty
  rw [parts_append hw.unmarked_text hq, hw.takeWhile_eq hw.path_stops, hw.dropWhile_eq hw.path_stops, if_neg hne,
    String.ofList_toList, String.ofList_toList]

/-- Only a domain and a path that begin like a scheme make a text that begins like one. -/
theorem Writable.scheme_iff :
    "http://".toList <+: domain.toList ++ (path.toList ++ (writeQuery spelled).toList) ↔
      domain = "http:" ∧ "//".toList <+: path.toList := by
  constructor
  · rintro ⟨rest, htext⟩
    have hdomain : "http:".toList = domain.toList := by
      rw [← hw.takeWhile_eq hw.rest_stops, ← htext]
      rfl
    have hrest : "//".toList ++ rest = path.toList ++ (writeQuery spelled).toList := by
      rw [← hw.dropWhile_eq hw.rest_stops, ← htext]
      rfl
    refine ⟨String.toList_inj.mp hdomain.symm, ?_⟩
    rcases List.append_eq_append_iff.mp hrest with ⟨more, hpath, -⟩ | ⟨more, hslashes, hquery⟩
    · exact ⟨more, hpath.symm⟩
    · cases more with
      | nil =>
        rw [List.append_nil] at hslashes
        exact ⟨[], by rw [hslashes, List.append_nil]⟩
      | cons c more =>
        -- what is left of the slashes would have to begin the query
        have hmark : c = '?' := writeQuery_stops c (by rw [hquery]; rfl)
        subst hmark
        have hmem : '?' ∈ "//".toList := by simp [hslashes]
        exact absurd hmem (by decide)
  · rintro ⟨rfl, rest, hpath⟩
    exact ⟨rest ++ (writeQuery spelled).toList, by rw [← hpath]; rfl⟩

end

/-! ## Reading what is written -/

theorem Writable.edged_write (hw : Writable domain path) (hq : List.Forall₂ SpellsPair query spelled) :
    Edged (write scheme domain path spelled).toList := by
  have hpath : Edged (domain.toList ++ path.toList) := hw.edged.append_right hw.last
  have hquery : Edged (domain.toList ++ path.toList ++ (writeQuery spelled).toList) :=
    hpath.append_right fun c hc => writeQuery_mem hq (List.mem_of_mem_getLast? hc)
  have hscheme : Edged "http://".toList := by
    refine ⟨by decide, ?_, ?_⟩
    · rintro _ ⟨⟩
      rfl
    · rintro _ ⟨⟩
      rfl
  cases scheme with
  | false => simpa [write] using hquery
  | true => simpa [write] using hscheme.append_right hquery.last

/-- The path loses at least its slashes where a domain and a path are taken for a scheme. -/
theorem Writable.path_ne (hw : Writable domain path) (hq : List.Forall₂ SpellsPair query spelled)
    (hpath : "//".toList ++ rest = path.toList) : (parts (rest ++ (writeQuery spelled).toList)).path ≠ path := by
  intro heq
  have hmark : '?' ∉ rest := by
    have hunmarked := hw.unmarked
    rw [← hpath, List.mem_append, not_or] at hunmarked
    exact hunmarked.2
  rw [parts_append hmark hq] at heq
  have hdrop : rest.dropWhile (fun c => !endsDomain c) = "//".toList ++ rest := by
    rw [hpath, ← heq, String.toList_ofList]
  have hlength := (List.dropWhile_suffix (l := rest) fun c => !endsDomain c).length_le
  rw [hdrop, List.length_append] at hlength
  have hslashes : "//".toList.length = 2 := rfl
  omega

/-- A written url is read back in its parts, unless the domain and the path begin like a scheme that is left out. -/
theorem reads_written_iff (hw : Writable domain path) (hq : List.Forall₂ SpellsPair query spelled) :
    read (write scheme domain path spelled) = { domain := some domain, path := path, query := query } ↔
      ¬ (scheme = false ∧ domain = "http:" ∧ "//".toList <+: path.toList) := by
  rw [read_eq_parts (hw.edged_write hq)]
  cases scheme with
  | true =>
    have htext : (write true domain path spelled).toList =
        "http://".toList ++ (domain.toList ++ path.toList ++ (writeQuery spelled).toList) := by
      simp [write]
    rw [htext, Text.stripStart?_append, Option.getD_some, hw.parts_eq hq]
    simp
  | false =>
    have htext : (write false domain path spelled).toList =
        domain.toList ++ (path.toList ++ (writeQuery spelled).toList) := by
      simp [write]
    by_cases hscheme : domain = "http:" ∧ "//".toList <+: path.toList
    · obtain ⟨rfl, rest, hpath⟩ := hscheme
      have hsplit : "http:".toList ++ (path.toList ++ (writeQuery spelled).toList) =
          "http://".toList ++ (rest ++ (writeQuery spelled).toList) := by
        rw [← hpath]
        rfl
      rw [htext, hsplit, Text.stripStart?_append, Option.getD_some]
      refine iff_of_false (fun heq => ?_) (not_not_intro ⟨rfl, rfl, rest, hpath⟩)
      exact hw.path_ne hq hpath (congrArg Url.path heq)
    · have hstart : ¬ "http://".toList <+: (write false domain path spelled).toList := by
        rwa [htext, hw.scheme_iff]
      rw [Text.stripStart?_eq_none hstart, Option.getD_none, htext, ← List.append_assoc, hw.parts_eq hq]
      exact iff_of_true rfl fun h => hscheme h.2

theorem writable_plain : Writable "g.cn" "/a b" where
  edged := ⟨by decide, by rintro _ ⟨⟩; rfl, by rintro _ ⟨⟩; rfl⟩
  inside := by simp [endsDomain]
  slash := by rintro _ ⟨⟩; rfl
  unmarked := by decide
  last := by rintro _ ⟨⟩; rfl

/-- A letter is spelled in digits of both cases, and an empty key stands twice. -/
theorem reads_written_spelled :
    (Writable "g.cn" "/a b" ∧
      List.Forall₂ SpellsPair [("a b", "Ω"), ("", "&"), ("", "&")] [("%61+b", "%cE%a9"), ("", "%26"), ("", "%26")]) ∧
      read "http://g.cn/a b?%61+b=%cE%a9&=%26&=%26" =
        { domain := some "g.cn", path := "/a b", query := [("a b", "Ω"), ("", "&"), ("", "&")] } := by
  have hletter : SpellsChar 'a' ['%', '6', '1'] := .escaped (.cons (by decide) (by decide) .nil)
  have hand : SpellsChar '&' ['%', '2', '6'] := .escaped (.cons (by decide) (by decide) .nil)
  have homega : SpellsChar 'Ω' ['%', 'c', 'E', '%', 'a', '9'] :=
    .escaped (.cons (by decide) (by decide) (.cons (by decide) (by decide) .nil))
  have hword : Spells ['a', ' ', 'b'] ['%', '6', '1', '+', 'b'] :=
    .cons hletter (.cons .plus (.cons (.plain rfl) .nil))
  have hq : List.Forall₂ SpellsPair [("a b", "Ω"), ("", "&"), ("", "&")]
      [("%61+b", "%cE%a9"), ("", "%26"), ("", "%26")] :=
    .cons ⟨hword, .cons homega .nil⟩ (.cons ⟨.nil, .cons hand .nil⟩ (.cons ⟨.nil, .cons hand .nil⟩ .nil))
  have hread : read (write true "g.cn" "/a b" [("%61+b", "%cE%a9"), ("", "%26"), ("", "%26")]) =
      { domain := some "g.cn", path := "/a b", query := [("a b", "Ω"), ("", "&"), ("", "&")] } :=
    (reads_written_iff writable_plain hq).mpr (by simp)
  exact ⟨⟨writable_plain, hq⟩, hread⟩

/-- A domain and a path that begin like a scheme are lost where no scheme is written. -/
theorem writable_taken_for_scheme : Writable "http:" "//g.cn" ∧
    read (write false "http:" "//g.cn" []) ≠ { domain := some "http:", path := "//g.cn", query := [] } := by
  have hwritable : Writable "http:" "//g.cn" :=
    { edged := ⟨by decide, by rintro _ ⟨⟩; rfl, by rintro _ ⟨⟩; rfl⟩
      inside := by simp [endsDomain]
      slash := by rintro _ ⟨⟩; rfl
      unmarked := by decide
      last := by rintro _ ⟨⟩; rfl }
  exact ⟨hwritable, by decide⟩

end TrafficPolicy.Url
