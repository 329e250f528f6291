import TrafficPolicy.Proofs.Grammar.DomainRule
import TrafficPolicy.Proofs.Grammar.UrlRule

/-!
# Commands that give the same policy again

A policy without parts whose values are whole numbers, words and options is written with all that it says, and so is
one that takes other policies away. The command of such a policy is read as the policy itself, however the policy was
written first: integers may have had signs and zeros in front, lists blanks, and options may have been left out.
-/

namespace TrafficPolicy

open Text WordReader

/-! ## Taking policies away -/

theorem Slot.bare_of_ofKeyword? {keyword : String} {slot : Slot} (h : ofKeyword? keyword = some slot) :
    Bare keyword := by
  unfold ofKeyword? at h
  split at h
  · rename_i hdelay
    obtain ⟨kind, hkind⟩ := Option.isSome_iff_exists.mp hdelay
    obtain rfl : kind.keyword = keyword := by simpa using List.find?_some hkind
    cases kind <;> decide
  · split at h
    · rename_i hbody
      rw [hbody]
      decide
    · split at h
      · rename_i hcontent
        have hall : ∀ word ∈ contentKeywords, Bare word := by decide
        exact hall keyword (List.contains_iff_mem.mp hcontent)
      · obtain ⟨setting, hsetting, -⟩ := Option.map_eq_some_iff.mp h
        have hall : ∀ setting : Setting, ∀ word ∈ setting.keywords, Bare word := by
          intro setting
          cases setting <;> decide
        have hfind := List.find?_some (p := fun s : Setting => s.keywords.contains keyword) hsetting
        exact hall setting keyword (List.contains_iff_mem.mp hfind)

theorem TargetName.text_ofText (text : String) : (ofText text).text = text := by
  unfold ofText
  split
  · rename_i hall
    exact hall.symm
  · rfl

theorem text_of_readTargetName {text : String} {target : TargetName} (h : readTargetName text = .ok target) :
    target.text = text := by
  have hname := TargetName.text_ofText text
  unfold readTargetName at h
  split at h
  · rename_i hall
    cases h
    rwa [hall] at hname
  · rename_i pattern hnamed
    rw [hnamed] at hname
    cases hpattern : UrlPattern.read pattern with
    | error error =>
      rw [hpattern] at h
      cases h
    | ok url =>
      rw [hpattern] at h
      cases h
      exact hname

namespace Registry

variable {text keyword : String} {slot : Slot} {target : TargetName}

theorem read_deletion (scope : Scope) (hplain : Plain text) :
    standard.read (scope.keyword ++ " delete " ++ quote text) = .ok (.delete ⟨scope, .ofText text⟩) := by
  have hline : scope.keyword ++ " delete " ++ quote text = line [scope.keyword, "delete", text] := by
    have hscope : Bare scope.keyword := by cases scope <;> decide
    have hdelete : Bare "delete" := by decide
    rw [hscope.line_cons (List.cons_ne_nil _ _), hdelete.line_cons (List.cons_ne_nil _ _), line_singleton]
    simp only [String.append_assoc]
    rfl
  have hwords : ∀ word ∈ [scope.keyword, "delete", text], Plain word := by
    have hscope : Plain scope.keyword := by cases scope <;> decide
    simpa [hscope, hplain] using show Plain "delete" by decide
  rw [read_eq_ok_iff, hline, words_line hwords]
  cases scope with
  | url =>
    rw [Scope.keyword, builds_url Registry.builder?_url, reads_urlDeletion]
    exact reads_deletion.mpr ⟨text, rfl, rfl⟩
  | domain =>
    rw [Scope.keyword, builds_domain Registry.builder?_domain, reads_domainDeletion]
    exact reads_deletion.mpr ⟨text, rfl, rfl⟩

theorem read_removal (hslot : Slot.ofKeyword? keyword = some slot) (hplain : Plain text)
    (htarget : readTargetName text = .ok target) :
    standard.read ("url remove " ++ keyword ++ " " ++ quote text) = .ok (.remove ⟨keyword, slot, target, hslot⟩) := by
  have hkeyword := Slot.bare_of_ofKeyword? hslot
  have hline : "url remove " ++ keyword ++ " " ++ quote text = line ["url", "remove", keyword, text] := by
    have hurl : Bare "url" := by decide
    have hremove : Bare "remove" := by decide
    rw [hurl.line_cons (List.cons_ne_nil _ _), hremove.line_cons (List.cons_ne_nil _ _),
      hkeyword.line_cons (List.cons_ne_nil _ _), line_singleton]
    simp only [← String.append_assoc]
    rfl
  have hwords : ∀ word ∈ ["url", "remove", keyword, text], Plain word := by
    have hurl : Plain "url" := by decide
    have hremove : Plain "remove" := by decide
    simpa [hkeyword.plain, hplain] using ⟨hurl, hremove⟩
  rw [read_eq_ok_iff, hline, words_line hwords, builds_url Registry.builder?_url, reads_urlRemoval]
  exact reads_removal.mpr ⟨⟨keyword, slot, target, hslot⟩, text, rfl, htarget, rfl⟩

end Registry

namespace Policy

variable {policy : Policy} {words rest : List String} {command : String}

/-- A policy that is written with all that it says: it has no parts, and no duration or rate, which are rounded when
they are written. -/
def Verbatim : Policy → Prop
  | .speed _ | .delay _ | .url _ | .domain _ => False
  | _ => True

theorem Verbatim.rereads_self (h : policy.Verbatim) : policy.Rereads policy := by
  cases policy with
  | speed _ | delay _ => cases h
  | _ => rfl

/-- What has no parts and is not rounded is read again as itself. -/
theorem Elementary.read_command_self (h : policy.Elementary) (hverbatim : policy.Verbatim) :
    Registry.standard.read policy.command = .ok policy := by
  have hbuilds : Registry.standard.Builds (policy.written ++ []) policy [] :=
    (builds_written h fun _ => by simp).mpr ⟨rfl, hverbatim.rereads_self⟩
  rw [List.append_nil] at hbuilds
  rwa [Registry.read_eq_ok_iff, command_eq_line h, words_line (plain_written h)]

theorem read_command_of_deletion {scope : Scope} (hplain : ∀ word ∈ words, Plain word)
    (h : (readDeletion scope).Reads words policy rest) : Registry.standard.read policy.command = .ok policy := by
  obtain ⟨text, rfl, rfl⟩ := reads_deletion.mp h
  have hcommand : (Policy.delete ⟨scope, .ofText text⟩).command = scope.keyword ++ " delete " ++ quote text := by
    rw [command, Deletion.command, TargetName.text_ofText]
  rw [hcommand]
  exact Registry.read_deletion scope (hplain text List.mem_cons_self)

theorem read_command_of_removal (hplain : ∀ word ∈ words, Plain word) (h : readRemoval.Reads words policy rest) :
    Registry.standard.read policy.command = .ok policy := by
  obtain ⟨removal, text, rfl, htarget, rfl⟩ := reads_removal.mp h
  have hcommand : (Policy.remove removal).command = "url remove " ++ removal.keyword ++ " " ++ quote text := by
    rw [command, Removal.command, text_of_readTargetName htarget]
  rw [hcommand]
  exact Registry.read_removal removal.names (hplain text (by simp)) htarget

/-- A url command for no rule is one that takes something away. -/
theorem read_command_of_buildUrl (hplain : ∀ word ∈ words, Plain word) (hverbatim : policy.Verbatim)
    (h : WordReader.Reads Registry.standard.buildUrl words policy rest) :
    Registry.standard.read policy.command = .ok policy := by
  rcases Registry.reads_buildUrl_cases h with
    ⟨arguments, rfl, hremoval⟩ | ⟨arguments, rfl, hdeletion⟩ | ⟨before, mid, -, htarget⟩
  · exact read_command_of_removal (fun word hword => hplain word (List.mem_cons_of_mem _ hword)) hremoval
  · exact read_command_of_deletion (fun word hword => hplain word (List.mem_cons_of_mem _ hword)) hdeletion
  · rcases UrlRule.reads_readTarget.mp htarget with ⟨-, ⟨-, rfl⟩ | ⟨_, _, -, -, rfl⟩⟩ <;> cases hverbatim

/-- A domain command for no rule is one that takes something away. -/
theorem read_command_of_buildDomain (hplain : ∀ word ∈ words, Plain word) (hverbatim : policy.Verbatim)
    (h : WordReader.Reads Registry.standard.buildDomain words policy rest) :
    Registry.standard.read policy.command = .ok policy := by
  rcases Registry.reads_buildDomain_cases h with ⟨arguments, rfl, hdeletion⟩ | ⟨options, mid, -, htarget⟩
  · exact read_command_of_deletion (fun word hword => hplain word (List.mem_cons_of_mem _ hword)) hdeletion
  · obtain ⟨-, _, _, -, ⟨-, rfl⟩ | ⟨_, _, -, -, rfl⟩⟩ := DomainOptions.reads_readTarget.mp htarget <;> cases hverbatim

/-- A policy without parts, durations and rates, or one that takes policies away, is what its command says. -/
theorem Verbatim.read_command (hverbatim : policy.Verbatim) (h : Registry.standard.read command = .ok policy) :
    Registry.standard.read policy.command = .ok policy := by
  have hplain : ∀ word ∈ Text.words command, Plain word := fun word => plain_of_mem_words
  rcases Registry.builds_standard hplain (Registry.read_eq_ok_iff.mp h) with
    helementary | ⟨arguments, hwords, hurl⟩ | ⟨arguments, hwords, hdomain⟩
  · exact helementary.read_command_self hverbatim
  · rw [hwords] at hplain
    exact read_command_of_buildUrl (fun word hword => hplain word (List.mem_cons_of_mem _ hword)) hverbatim hurl
  · rw [hwords] at hplain
    exact read_command_of_buildDomain (fun word hword => hplain word (List.mem_cons_of_mem _ hword)) hverbatim hdomain

/-- Sizes with blanks, a sign and a zero in front are written without these. -/
theorem Verbatim.read_command_sizes :
    Registry.standard.read "chunked size \" 10, +020 ,-1\"" = .ok (.chunked (.sizes [10, 20, -1])) ∧
      Registry.standard.read "chunked size 10,20,-1" = .ok (.chunked (.sizes [10, 20, -1])) := by
  have hwords : Text.words "chunked size \" 10, +020 ,-1\"" = ["chunked", "size", " 10, +020 ,-1"] := by decide
  have hb : Registry.standard.builder? "chunked" = some (.leaf .chunked) :=
    Registry.builder?_standard_iff.mpr .chunked
  have hsizes : PieceSizes.read " 10, +020 ,-1" = .ok [10, 20, -1] := by decide
  have hread : Registry.standard.read "chunked size \" 10, +020 ,-1\"" = .ok (.chunked (.sizes [10, 20, -1])) := by
    rw [Registry.read_eq_ok_iff, hwords, Registry.builds_leaf hb]
    exact Leaf.reads_chunked.mpr
      ⟨_, Leaf.reads_framing.mpr (.inr (.inr (.inr (.inr (.inl ⟨_, _, rfl, hsizes, rfl⟩))))), rfl⟩
  have hcommand : (Policy.chunked (.sizes [10, 20, -1])).command = "chunked size 10,20,-1" := by decide
  refine ⟨hread, ?_⟩
  rw [← hcommand]
  exact Verbatim.read_command trivial hread

end Policy

end TrafficPolicy
