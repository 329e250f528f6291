import TrafficPolicy.Proofs.Grammar.Slots

/-!
# Url rules as they are written

Every rule that is read can be written, and what is written is read as the rule again, floats apart. There are
two exceptions, both without a fault of the rule: a target that follows `url` at once may be taken for a
subcommand, and a target that follows `chunked` may be taken for an option of it.
-/

namespace TrafficPolicy

open Text WordReader

/-- A domain for examples. -/
def DomainPattern.host : DomainPattern := ⟨"g.cn", .exact "g.cn".toList, rfl⟩

def UrlMode.policy : UrlMode → Policy
  | .set => .marker .set
  | .update => .marker .update

namespace UrlRule

variable {rule result next : UrlRule} {words rest : List String} {policy : Policy}

/-- What holds of the occupants of two rules holds of those of the merged rule. -/
theorem forall_update {P : (s : Slot) → s.Occupant → Prop} {later : UrlRule}
    (h : ∀ s o, rule.slots.get s = some o → P s o) (hlater : ∀ s o, later.slots.get s = some o → P s o) :
    ∀ s o, (rule.update later).slots.get s = some o → P s o := by
  unfold update
  cases later.mode.getD .set with
  | set => exact hlater
  | update => exact Slots.forall_onto hlater h

/-- What every rule has that has been read. -/
structure Sound (rule : UrlRule) : Prop where
  slots : rule.slots.Sound
  target : ∀ t ∈ rule.target, UrlPattern.read t.text = .ok t ∧ Plain t.text ∧ t.text ∉ keywords

/-! ## What is read is sound -/

theorem placePolicy_cases (h : rule.placePolicy policy = .ok next) :
    (∃ mode, policy.urlPart? = some (.mode mode) ∧ next = { rule with mode := some mode }) ∨
      ∃ s o, policy.urlPart? = some (.occupant s o) ∧
        next = { rule with slots := rule.slots.put s (some o) } := by
  unfold placePolicy at h
  split at h
  · rename_i part hpart
    cases part with
    | mode mode =>
      simp only [place] at h
      split at h <;> cases h
      exact .inl ⟨mode, hpart, rfl⟩
    | occupant s o =>
      simp only [place] at h
      split at h <;> cases h
      exact .inr ⟨s, o, hpart, rfl⟩
  · cases h

theorem reads_readTarget :
    rule.readTarget.Reads words policy rest ↔
      rest = [] ∧ ((words = [] ∧ policy = .url rule) ∨
        ∃ text pattern, words = [text] ∧ UrlPattern.read text = .ok pattern ∧
          policy = .url { rule with target := some pattern }) := by
  unfold readTarget
  simp only [reads_bind, reads_next?]
  constructor
  · rintro ⟨word?, _, ⟨rfl, rfl⟩, h⟩
    cases words with
    | nil =>
      simp only [List.head?_nil, List.tail_nil, reads_bind, reads_pure, reads_finish] at h
      obtain ⟨_, _, ⟨rfl, rfl⟩, u, _, ⟨-, rfl⟩, rfl, rfl⟩ := h
      exact ⟨rfl, .inl ⟨rfl, rfl⟩⟩
    | cons text words =>
      simp only [List.head?_cons, List.tail_cons, reads_bind, reads_liftM, reads_pure, reads_finish] at h
      obtain ⟨pattern, _, ⟨hpattern, rfl⟩, _, _, ⟨rfl, rfl⟩, u, _, ⟨rfl, rfl⟩, rfl, rfl⟩ := h
      exact ⟨rfl, .inr ⟨text, pattern, rfl, hpattern, rfl⟩⟩
  · rintro ⟨rfl, ⟨rfl, rfl⟩ | ⟨text, pattern, rfl, hpattern, rfl⟩⟩
    · refine ⟨none, [], ⟨rfl, rfl⟩, ?_⟩
      simp only [reads_bind, reads_pure, reads_finish]
      exact ⟨rule, [], ⟨rfl, rfl⟩, (), [], ⟨rfl, rfl⟩, rfl, rfl⟩
    · refine ⟨some text, [], ⟨rfl, rfl⟩, ?_⟩
      simp only [reads_bind, reads_liftM, reads_pure, reads_finish]
      exact ⟨pattern, [], ⟨hpattern, rfl⟩, _, [], ⟨rfl, rfl⟩, (), [], ⟨rfl, rfl⟩, rfl, rfl⟩

section OnePart

variable {command keyword : String} (hwords : Text.words command = "url" :: keyword :: words)
  (hkeyword : keyword ∈ keywords)

include hwords hkeyword

private theorem read_of_part (hpart : Registry.standard.Builds (keyword :: words) policy rest)
    (hplace : ({} : UrlRule).placePolicy policy = .ok rule) {mid : List String} {read : Policy}
    (hparts : WordReader.Reads (Registry.standard.urlParts rule) rest rule mid)
    (htarget : rule.readTarget.Reads mid read []) : Registry.standard.read command = .ok read := by
  have hremove : (keyword :: words).head? ≠ some "remove" := by
    rintro ⟨⟩
    exact absurd hkeyword (by decide)
  have hdelete : (keyword :: words).head? ≠ some "delete" := by
    rintro ⟨⟩
    exact absurd hkeyword (by decide)
  rw [Registry.read_eq_ok_iff, hwords, Registry.builds_url Registry.builder?_url,
    Registry.reads_urlRule hremove hdelete]
  exact ⟨rule, mid, (Registry.reads_urlParts_part hkeyword).mpr ⟨policy, rest, rule, hpart, hplace, hparts⟩, htarget⟩

/-- A command with one part and no target. -/
theorem read_part (hpart : Registry.standard.Builds (keyword :: words) policy [])
    (hplace : ({} : UrlRule).placePolicy policy = .ok rule) : Registry.standard.read command = .ok (.url rule) :=
  read_of_part hwords hkeyword hpart hplace (Registry.reads_urlParts_nil.mpr ⟨rfl, rfl⟩)
    (reads_readTarget.mpr ⟨rfl, .inl ⟨rfl, rfl⟩⟩)

/-- A command with one part and a target. -/
theorem read_part_target {text : String} {pattern : UrlPattern}
    (hpart : Registry.standard.Builds (keyword :: words) policy [text])
    (hplace : ({} : UrlRule).placePolicy policy = .ok rule) (htext : text ∉ keywords)
    (hpattern : UrlPattern.read text = .ok pattern) :
    Registry.standard.read command = .ok (.url { rule with target := some pattern }) :=
  read_of_part hwords hkeyword hpart hplace ((Registry.reads_urlParts_target htext).mpr ⟨rfl, rfl⟩)
    (reads_readTarget.mpr ⟨rfl, .inr ⟨text, pattern, rfl, hpattern, rfl⟩⟩)

end OnePart

theorem elementary_of_keyword {keyword : String} (hkeyword : keyword ∈ keywords)
    (hplain : ∀ word ∈ keyword :: words, Plain word)
    (h : Registry.standard.Builds (keyword :: words) policy rest) : policy.Elementary := by
  rcases Registry.builds_standard hplain h with he | ⟨arguments, heq, -⟩ | ⟨arguments, heq, -⟩
  · exact he
  · obtain rfl := (List.cons.inj heq).1
    exact absurd hkeyword (by decide)
  · obtain rfl := (List.cons.inj heq).1
    exact absurd hkeyword (by decide)

/-- What is read in front of the target is sound and has no target yet. -/
theorem sound_of_reads_urlParts (hplain : ∀ word ∈ words, Plain word)
    (h : WordReader.Reads (Registry.standard.urlParts {}) words rule rest) :
    rule.slots.Sound ∧ rule.target = none ∧ rest <:+ words ∧ ∀ word ∈ rest.head?, word ∉ keywords := by
  have hstart : ({} : UrlRule).slots.Sound ∧ ({} : UrlRule).target = none := by
    refine ⟨fun s o ho => ?_, rfl⟩
    simp at ho
  obtain ⟨⟨hslots, htarget⟩, hrest, hhead⟩ := (Registry.readsParts_url .standard).keeps
    (I := fun rule => rule.slots.Sound ∧ rule.target = none) (Q := Plain) (by
    rintro state next word words rest policy ⟨hslots, htarget⟩ hword hplain hbuild hplace
    have helementary := elementary_of_keyword hword hplain hbuild
    rcases placePolicy_cases hplace with ⟨mode, -, rfl⟩ | ⟨s, o, hpart, rfl⟩
    · exact ⟨hslots, htarget⟩
    · obtain rfl := Policy.eq_policy_of_part hpart
      refine ⟨Slots.forall_put hslots fun o' ho' => ?_, htarget⟩
      exact Option.some.inj ho' ▸ ⟨helementary, hpart⟩) hplain hstart h
  exact ⟨hslots, htarget, hrest, hhead⟩

/-- What a url command says: a removal, a deletion or a rule that is sound. -/
theorem cases_of_reads_buildUrl (hplain : ∀ word ∈ words, Plain word)
    (h : WordReader.Reads Registry.standard.buildUrl words policy rest) :
    (∃ removal, policy = .remove removal) ∨ (∃ deletion, policy = .delete deletion) ∨
      ∃ rule : UrlRule, policy = .url rule ∧ rule.Sound := by
  rcases Registry.reads_buildUrl_cases h with
    ⟨arguments, -, hremoval⟩ | ⟨arguments, -, hdeletion⟩ | ⟨before, mid, hparts, htarget⟩
  · obtain ⟨removal, -, -, -, rfl⟩ := reads_removal.mp hremoval
    exact .inl ⟨removal, rfl⟩
  · obtain ⟨-, -, rfl⟩ := reads_deletion.mp hdeletion
    exact .inr (.inl ⟨_, rfl⟩)
  obtain ⟨hslots, hnone, hmid, hhead⟩ := sound_of_reads_urlParts hplain hparts
  refine .inr (.inr ?_)
  rcases reads_readTarget.mp htarget with ⟨-, ⟨rfl, rfl⟩ | ⟨text, pattern, rfl, hpattern, rfl⟩⟩
  · exact ⟨before, rfl, hslots, by simp [hnone]⟩
  · refine ⟨_, rfl, hslots, ?_⟩
    intro t ht
    obtain rfl := Option.some.inj ht
    have htext := (UrlPattern.parts_of_read hpattern).1
    refine ⟨by rw [htext, hpattern], ?_, ?_⟩
    · rw [htext]
      exact hplain text (hmid.subset List.mem_cons_self)
    · rw [htext]
      exact hhead text rfl

/-! ## What is written is read as the rule -/

def parts (rule : UrlRule) : List Policy :=
  (rule.mode.map UrlMode.policy).toList ++ rule.slots.policies

def targetTexts (rule : UrlRule) : List String :=
  (rule.target.map UrlPattern.text).toList

def arguments (rule : UrlRule) : List String :=
  rule.parts.flatMap Policy.written ++ rule.targetTexts

theorem Sound.elementary (h : rule.Sound) : ∀ policy ∈ rule.parts, policy.Elementary := by
  intro policy hpolicy
  rcases List.mem_append.mp hpolicy with hmode | hslots
  · obtain ⟨mode, -, rfl⟩ := Option.map_eq_some_iff.mp (Option.mem_toList.mp hmode)
    cases mode <;> trivial
  · exact h.slots.elementary policy hslots

theorem Sound.beginsIn (h : rule.Sound) :
    ∀ policy ∈ rule.parts, Registry.ReadsParts.BeginsIn keywords policy := by
  intro policy hpolicy
  rcases List.mem_append.mp hpolicy with hmode | hslots
  · obtain ⟨mode, -, rfl⟩ := Option.map_eq_some_iff.mp (Option.mem_toList.mp hmode)
    cases mode <;> exact ⟨_, rfl, by decide⟩
  · exact h.slots.beginsIn policy hslots

theorem Sound.plain_arguments (h : rule.Sound) : ∀ word ∈ rule.arguments, Plain word := by
  intro word hword
  rcases List.mem_append.mp hword with hparts | htarget
  · obtain ⟨policy, hpolicy, hword⟩ := List.mem_flatMap.mp hparts
    exact Policy.plain_written (h.elementary policy hpolicy) word hword
  · obtain ⟨t, ht, rfl⟩ := Option.map_eq_some_iff.mp (Option.mem_toList.mp htarget)
    exact (h.target t ht).2.1

theorem Sound.command_eq (h : rule.Sound) : rule.command = line ("url" :: rule.arguments) := by
  have hmode : (rule.mode.map UrlMode.keyword).toList =
      (rule.mode.map UrlMode.policy).toList.map Policy.command := by
    rcases rule.mode with _ | _ | _ <;> rfl
  have hparts : (rule.mode.map UrlMode.keyword).toList ++ rule.slots.commands = rule.parts.map Policy.command := by
    rw [hmode, Slots.commands_eq, ← List.map_append]
    rfl
  have htarget : rule.targetWords = rule.targetTexts.map quote := by
    unfold targetWords targetTexts
    cases rule.target <;> rfl
  rw [command, arguments, ← Policy.joinWith_commands (by decide) h.elementary, ← hparts, ← htarget]
  simp only [List.cons_append, List.nil_append]

theorem Sound.plain_words (h : rule.Sound) : ∀ word ∈ "url" :: rule.arguments, Plain word :=
  List.forall_mem_cons.mpr ⟨by decide, h.plain_arguments⟩

theorem Sound.arguments_eq_of_command_eq (h : rule.Sound) (hresult : result.Sound)
    (hcommand : rule.command = result.command) : rule.arguments = result.arguments := by
  rw [h.command_eq, hresult.command_eq] at hcommand
  exact (List.cons.inj (line_injective h.plain_words hresult.plain_words hcommand)).2

/-- The words in front of the target end so that the target is not taken for an option. -/
def OpenEnd (rule : UrlRule) : Prop :=
  rule.parts.getLast? = some (.chunked .on) → ∀ t ∈ rule.target, t.text ∉ Framing.options

/-- The target is not taken for a subcommand. -/
def OpenStart (rule : UrlRule) : Prop :=
  rule.parts = [] → ∀ t ∈ rule.target, t.text ≠ "remove" ∧ t.text ≠ "delete"

private theorem Sound.placed_iff (h : rule.Sound) :
    (∃ again, List.Forall₂ Policy.Rereads rule.parts again ∧ again.foldlM placePolicy {} = .ok next) ↔
      ∃ slots, rule.slots.Rereads slots ∧ next = { mode := rule.mode, slots } := by
  have hplaced := @Slots.Sound.placed_iff rule.slots { mode := rule.mode } h.slots rfl next
  rw [← hplaced]
  unfold parts
  cases rule.mode with
  | none => rfl
  | some mode =>
    have hplace : placePolicy {} mode.policy = .ok { mode := some mode } := by
      cases mode <;> rfl
    have hread : ∀ {read}, mode.policy.Rereads read ↔ read = mode.policy := by
      cases mode <;> exact Iff.rfl
    constructor
    · rintro ⟨_, hread', hfold⟩
      obtain ⟨read, again, hfirst, hagain, rfl⟩ := List.forall₂_cons_left_iff.mp hread'
      rw [hread.mp hfirst, List.foldlM_cons, hplace] at hfold
      exact ⟨again, hagain, hfold⟩
    · rintro ⟨again, hagain, hfold⟩
      refine ⟨mode.policy :: again, .cons (hread.mpr rfl) hagain, ?_⟩
      rw [List.foldlM_cons, hplace]
      exact hfold

theorem Sound.reads_parts (h : rule.Sound) {tail : List String} {before : UrlRule}
    (hopen : rule.parts.getLast? = some (.chunked .on) → ∀ word ∈ tail.head?, word ∉ Framing.options) :
    WordReader.Reads (Registry.standard.urlParts {}) (rule.parts.flatMap Policy.written ++ tail) before rest ↔
      ∃ slots, rule.slots.Rereads slots ∧
        WordReader.Reads (Registry.standard.urlParts { mode := rule.mode, slots }) tail before rest := by
  rw [(Registry.readsParts_url .standard).reads_written h.elementary h.beginsIn (fun _ => by decide) hopen]
  constructor
  · rintro ⟨again, next, hagain, hfold, htail⟩
    obtain ⟨slots, hslots, rfl⟩ := h.placed_iff.mp ⟨again, hagain, hfold⟩
    exact ⟨slots, hslots, htail⟩
  · rintro ⟨slots, hslots, htail⟩
    obtain ⟨again, hagain, hfold⟩ := h.placed_iff.mpr ⟨slots, hslots, rfl⟩
    exact ⟨again, _, hagain, hfold, htail⟩

theorem Sound.head?_arguments (h : rule.Sound) (hstart : rule.OpenStart) :
    rule.arguments.head? ≠ some "remove" ∧ rule.arguments.head? ≠ some "delete" := by
  have hkeywords : "remove" ∉ keywords ∧ "delete" ∉ keywords := by decide
  unfold arguments targetTexts
  by_cases hparts : rule.parts = []
  · have htarget := hstart hparts
    cases ht : rule.target with
    | none => simp [hparts]
    | some t => simpa [hparts] using htarget t ht
  · obtain ⟨word, hkeyword, hword⟩ := Registry.ReadsParts.exists_head hparts h.beginsIn
    rw [hword]
    constructor
    · intro heq
      exact hkeywords.1 (Option.some.inj heq ▸ hkeyword)
    · intro heq
      exact hkeywords.2 (Option.some.inj heq ▸ hkeyword)

/-- What a rule is read as that is written so that its target is taken for a target. -/
theorem Sound.reads_arguments (h : rule.Sound) (hstart : rule.OpenStart) (hend : rule.OpenEnd) :
    WordReader.Reads Registry.standard.buildUrl rule.arguments policy rest ↔
      rest = [] ∧ ∃ slots, rule.slots.Rereads slots ∧ policy = .url { rule with slots } := by
  obtain ⟨hremove, hdelete⟩ := h.head?_arguments hstart
  have hopen : rule.parts.getLast? = some (.chunked .on) → ∀ word ∈ rule.targetTexts.head?,
      word ∉ Framing.options := by
    intro hlast word hword
    unfold targetTexts at hword
    cases ht : rule.target with
    | none => simp [ht] at hword
    | some t =>
      obtain rfl : t.text = word := by simpa [ht] using hword
      exact hend hlast t ht
  rw [Registry.reads_urlRule hremove hdelete, arguments]
  simp only [h.reads_parts hopen, reads_readTarget]
  obtain ⟨mode, slots, target⟩ := rule
  cases target with
  | none =>
    simp only [targetTexts, Option.map_none, Option.toList_none, Registry.reads_urlParts_nil]
    constructor
    · rintro ⟨_, _, ⟨again, hagain, rfl, rfl⟩, rfl, ⟨-, rfl⟩ | ⟨text, pattern, heq, -⟩⟩
      · exact ⟨rfl, again, hagain, rfl⟩
      · cases heq
    · rintro ⟨rfl, again, hagain, rfl⟩
      exact ⟨_, [], ⟨again, hagain, rfl, rfl⟩, rfl, .inl ⟨rfl, rfl⟩⟩
  | some t =>
    obtain ⟨hread, -, hkeyword⟩ := h.target t rfl
    simp only [targetTexts, Option.map_some, Option.toList_some, Registry.reads_urlParts_target hkeyword]
    constructor
    · rintro ⟨_, _, ⟨again, hagain, rfl, rfl⟩, rfl, ⟨heq, -⟩ | ⟨text, pattern, heq, hpattern, rfl⟩⟩
      · cases heq
      · obtain rfl := (List.cons.inj heq).1
        cases hread.symm.trans hpattern
        exact ⟨rfl, again, hagain, rfl⟩
    · rintro ⟨rfl, again, hagain, rfl⟩
      exact ⟨_, [t.text], ⟨again, hagain, rfl, rfl⟩, rfl, .inr ⟨t.text, t, rfl, hread, rfl⟩⟩

/-! ## Targets that are not taken for targets -/

theorem not_reads_of_not_openStart (h : ¬rule.OpenStart) :
    ¬WordReader.Reads Registry.standard.buildUrl rule.arguments policy rest := by
  simp only [OpenStart, not_forall] at h
  obtain ⟨hparts, t, ht, hword⟩ := h
  have harguments : rule.arguments = [t.text] := by
    simp [arguments, targetTexts, hparts, Option.mem_def.mp ht]
  rw [harguments]
  by_cases hremove : t.text = "remove"
  · rw [hremove, Registry.reads_urlRemoval, reads_removal]
    rintro ⟨removal, text, heq, -⟩
    cases heq
  · obtain hdelete : t.text = "delete" := by
      by_contra hdelete
      exact hword ⟨hremove, hdelete⟩
    rw [hdelete, Registry.reads_urlDeletion, reads_deletion]
    rintro ⟨text, heq, -⟩
    cases heq

private theorem rest_of_builds_chunked {option : String} (hoption : option ∈ Framing.options)
    (h : Registry.standard.Builds ["chunked", option] policy rest) : rest = [] := by
  have hb : Registry.standard.builder? "chunked" = some (.leaf .chunked) :=
    Registry.builder?_standard_iff.mpr .chunked
  obtain ⟨framing, hframing, -⟩ := Leaf.reads_chunked.mp ((Registry.builds_leaf hb).mp h)
  rcases Leaf.reads_framing.mp hframing with ⟨heq, -⟩ | ⟨heq, -⟩ | ⟨heq, -⟩ | ⟨raw, count, heq, -⟩ |
    ⟨raw, sizes, heq, -⟩ | ⟨-, hopen, -⟩
  · exact ((List.cons.inj heq).2).symm
  · exact ((List.cons.inj heq).2).symm
  · exact ((List.cons.inj heq).2).symm
  · cases (List.cons.inj heq).2
  · cases (List.cons.inj heq).2
  · exact absurd hoption (hopen option rfl)

/-- A target that is taken for an option of `chunked` leaves the rule without a target. -/
theorem Sound.untargeted_of_not_openEnd (h : rule.Sound) (hstart : rule.OpenStart) (hend : ¬rule.OpenEnd)
    (hread : WordReader.Reads Registry.standard.buildUrl rule.arguments policy rest) :
    ∃ again : UrlRule, policy = .url again ∧ again.target = none := by
  obtain ⟨hremove, hdelete⟩ := h.head?_arguments hstart
  obtain ⟨before, mid, hparts, htarget⟩ := (Registry.reads_urlRule hremove hdelete).mp hread
  obtain ⟨-, hnone, -, -⟩ := sound_of_reads_urlParts h.plain_arguments hparts
  simp only [OpenEnd, not_forall, not_not] at hend
  obtain ⟨hlast, t, ht, hoption⟩ := hend
  obtain ⟨init, hinit⟩ : ∃ init, rule.parts = init ++ [.chunked .on] :=
    List.getLast?_eq_some_iff.mp hlast
  have hsplit : rule.arguments = init.flatMap Policy.written ++ ["chunked", t.text] := by
    simp [arguments, targetTexts, hinit, Option.mem_def.mp ht, Policy.written, Framing.written]
  have hmid : mid = [] := by
    rw [hsplit, (Registry.readsParts_url .standard).reads_written
      (fun policy hpolicy => h.elementary policy (by simp [hinit, hpolicy]))
      (fun policy hpolicy => h.beginsIn policy (by simp [hinit, hpolicy]))
      (fun _ => by decide) (fun _ => by simp [Framing.options])] at hparts
    obtain ⟨_, next, -, -, hnext⟩ := hparts
    obtain ⟨chunked, left, last, hbuild, -, hlast⟩ := (Registry.reads_urlParts_part (by decide)).mp hnext
    rw [rest_of_builds_chunked hoption hbuild, Registry.reads_urlParts_nil] at hlast
    exact hlast.2
  rw [hmid] at htarget
  rcases reads_readTarget.mp htarget with ⟨-, ⟨-, rfl⟩ | ⟨text, pattern, heq, -⟩⟩
  · exact ⟨before, rfl, hnone⟩
  · cases heq

/-! ## Rules that are read as they were written -/

/-- A rule is read again from its command: the texts of its floats stay as they are, and its target is taken
for a target. -/
structure Legible (rule : UrlRule) : Prop where
  settled : rule.slots.Settled
  openStart : rule.OpenStart
  openEnd : rule.OpenEnd

theorem Sound.read_command_iff (h : rule.Sound) :
    Registry.standard.read rule.command = .ok policy ↔
      WordReader.Reads Registry.standard.buildUrl rule.arguments policy [] := by
  have hb : Registry.standard.builder? "url" = some .url := Registry.builder?_standard_iff.mpr .url
  rw [Registry.read_eq_ok_iff, h.command_eq, words_line h.plain_words, Registry.builds_url hb]

theorem Sound.of_rereads (h : rule.Sound) {slots : Slots} (hslots : rule.slots.Rereads slots) :
    Sound { rule with slots } :=
  ⟨h.slots.of_rereads hslots, h.target⟩

theorem Sound.command_eq_iff (h : rule.Sound) {slots : Slots} (hslots : rule.slots.Rereads slots) :
    UrlRule.command { rule with slots } = rule.command ↔
      slots.policies.flatMap Policy.written = rule.slots.policies.flatMap Policy.written := by
  have hagain := h.of_rereads hslots
  constructor
  · intro heq
    have harguments := hagain.arguments_eq_of_command_eq h heq
    simpa [arguments, parts, targetTexts] using harguments
  · intro heq
    rw [h.command_eq, hagain.command_eq]
    simp only [arguments, parts, targetTexts, List.flatMap_append, heq]

/-- A rule is legible exactly if its command is read as a rule with the same target and the same command. -/
theorem Sound.legible_iff (h : rule.Sound) :
    rule.Legible ↔ ∃ again : UrlRule, Registry.standard.read rule.command = .ok (.url again) ∧
      again.target = rule.target ∧ again.command = rule.command := by
  simp only [h.read_command_iff]
  constructor
  · rintro ⟨hsettled, hstart, hend⟩
    obtain ⟨slots, hslots, hwritten⟩ := Slots.settled_iff_written.mp hsettled
    exact ⟨{ rule with slots }, (h.reads_arguments hstart hend).mpr ⟨rfl, slots, hslots, rfl⟩, rfl,
      (h.command_eq_iff hslots).mpr hwritten⟩
  · rintro ⟨again, hread, htarget, hcommand⟩
    have hstart : rule.OpenStart := by
      by_contra hstart
      exact not_reads_of_not_openStart hstart hread
    have hend : rule.OpenEnd := by
      by_contra hend
      obtain ⟨_, heq, hnone⟩ := h.untargeted_of_not_openEnd hstart hend hread
      cases heq
      rw [hnone] at htarget
      exact hend fun _ t ht => by simp [← htarget] at ht
    obtain ⟨-, slots, hslots, heq⟩ := (h.reads_arguments hstart hend).mp hread
    cases heq
    exact ⟨Slots.settled_iff_written.mpr ⟨slots, hslots, (h.command_eq_iff hslots).mp hcommand⟩, hstart, hend⟩

/-- What the command of a rule can be read as: a rule with the same target, or one without a target in place of
one with a target. -/
theorem Sound.again_of_read (h : rule.Sound) (hread : Registry.standard.read rule.command = .ok policy) :
    ∃ again : UrlRule, policy = .url again ∧
      (again.target = rule.target ∧ again.mode = rule.mode ∨ again.target = none ∧ rule.target ≠ none) := by
  have hread := h.read_command_iff.mp hread
  have hstart : rule.OpenStart := by
    by_contra hstart
    exact not_reads_of_not_openStart hstart hread
  by_cases hend : rule.OpenEnd
  · obtain ⟨-, slots, -, rfl⟩ := (h.reads_arguments hstart hend).mp hread
    exact ⟨_, rfl, .inl ⟨rfl, rfl⟩⟩
  · obtain ⟨again, rfl, hnone⟩ := h.untargeted_of_not_openEnd hstart hend hread
    refine ⟨again, rfl, .inr ⟨hnone, fun htarget => hend fun _ t ht => ?_⟩⟩
    rw [htarget] at ht
    cases ht

/-- The target is the last word of a command. -/
theorem Sound.text_eq_of_command_eq (h : rule.Sound) (hresult : result.Sound)
    (hcommand : rule.command = result.command) {t t' : UrlPattern} (ht : rule.target = some t)
    (ht' : result.target = some t') : t.text = t'.text := by
  have hlast := congrArg List.getLast? (h.arguments_eq_of_command_eq hresult hcommand)
  simpa [arguments, targetTexts, ht, ht'] using hlast

end UrlRule

end TrafficPolicy
