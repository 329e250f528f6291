import TrafficPolicy.Proofs.Profile.SoundRules

/-!
# Rules without floats are read back

A float is written with few digits, and these may say another one. A rule without floats is written in words
that say exactly this rule, unless its target is taken for something else. That happens in two ways:

* A url rule ends in `chunked`, and its target is one of the options that may follow that word.
* A domain rule is written as its target alone, since the action that it names is the one that is not written,
  and the target is the name of a subcommand.

A url rule that is written as its target alone has been read from its target alone, so no subcommand can be
meant by it.
-/

namespace TrafficPolicy

open Text WordReader

namespace UrlRule

variable {rule next : UrlRule} {words rest : List String} {policy : Policy} {command : String}

theorem parts_ne_nil_of_placePolicy (h : rule.placePolicy policy = .ok next) : next.parts ≠ [] := by
  rcases placePolicy_cases h with ⟨mode, -, rfl⟩ | ⟨s, o, -, rfl⟩
  · simp [parts]
  · have hput : (rule.slots.put s (some o)).get s = some o := Slots.get_put_self _ _ _
    have hmem : s.policy o ∈ (rule.slots.put s (some o)).policies :=
      Slots.mem_policiesOf.mpr ⟨s, s.mem_all, o, hput, rfl⟩
    exact List.ne_nil_of_mem (List.mem_append_right _ hmem)

/-- A rule that has nothing in front of its target has been read from no words. -/
theorem eq_empty_of_parts_nil (h : WordReader.Reads (Registry.standard.urlParts {}) words rule rest)
    (hparts : rule.parts = []) : rule = {} ∧ rest = words := by
  cases words with
  | nil =>
    obtain ⟨hrule, hrest⟩ := Registry.reads_urlParts_nil.mp h
    exact ⟨hrule.symm, hrest⟩
  | cons word words =>
    by_cases hword : word ∈ keywords
    · -- The first part is never taken away again, whatever is placed after it.
      obtain ⟨policy, mid, next, -, hplace, hnext⟩ := (Registry.reads_urlParts_part hword).mp h
      have hfilled : next.parts ≠ [] := parts_ne_nil_of_placePolicy hplace
      obtain ⟨hresult, -, -⟩ := (Registry.readsParts_url .standard).keeps (I := fun rule => rule.parts ≠ [])
        (Q := fun _ => True) (fun _ _ _ _ hplace => parts_ne_nil_of_placePolicy hplace)
        (fun _ _ => trivial) hfilled hnext
      exact absurd hparts hresult
    · obtain ⟨hrule, hrest⟩ := (Registry.reads_urlParts_target hword).mp h
      exact ⟨hrule.symm, hrest⟩

theorem openStart_of_reads_buildUrl
    (h : WordReader.Reads Registry.standard.buildUrl words (.url rule) rest) : rule.OpenStart := by
  intro hparts t ht
  have hremove : words.head? ≠ some "remove" := by
    intro hhead
    rw [List.eq_cons_of_mem_head? hhead, Registry.reads_urlRemoval] at h
    obtain ⟨removal, text, -, -, heq⟩ := reads_removal.mp h
    cases heq
  have hdelete : words.head? ≠ some "delete" := by
    intro hhead
    rw [List.eq_cons_of_mem_head? hhead, Registry.reads_urlDeletion] at h
    obtain ⟨text, -, heq⟩ := reads_deletion.mp h
    cases heq
  obtain ⟨before, mid, hbefore, htarget⟩ := (Registry.reads_urlRule hremove hdelete).mp h
  rcases reads_readTarget.mp htarget with ⟨-, ⟨-, heq⟩ | ⟨text, pattern, rfl, hpattern, heq⟩⟩
  · cases heq
    obtain ⟨rfl, -⟩ := eq_empty_of_parts_nil hbefore hparts
    cases ht
  · cases heq
    obtain ⟨-, rfl⟩ := eq_empty_of_parts_nil hbefore hparts
    obtain rfl := Option.some.inj ht
    rw [(UrlPattern.parts_of_read hpattern).1]
    exact ⟨fun heq => hremove (congrArg some heq), fun heq => hdelete (congrArg some heq)⟩

/-- A url rule that is read can be written, and its target is not taken for a subcommand. -/
theorem sound_of_read (h : Registry.standard.read command = .ok (.url rule)) : rule.Sound ∧ rule.OpenStart := by
  have hplain : ∀ word ∈ Text.words command, Plain word := fun word => plain_of_mem_words
  refine ⟨Registry.sound_of_read h, ?_⟩
  rcases Registry.builds_standard hplain (Registry.read_eq_ok_iff.mp h) with
    he | ⟨arguments, -, hurl⟩ | ⟨arguments, hwords, hdomain⟩
  · cases he
  · exact openStart_of_reads_buildUrl hurl
  · have hplain : ∀ word ∈ arguments, Plain word :=
      fun word hword => hplain word (hwords ▸ List.mem_cons_of_mem _ hword)
    rcases DomainRule.cases_of_reads_buildDomain hplain hdomain with ⟨deletion, heq⟩ | ⟨other, heq, -⟩ <;> cases heq

end UrlRule

namespace Slots

variable {slots : Slots}

/-- No slot holds a number that is written with few digits. -/
structure Exact (slots : Slots) : Prop where
  delay : slots.delay = none
  body : slots.body = none
  speed : slots.speed = none

theorem Exact.rereads_self (h : slots.Exact) : slots.Rereads slots := by
  intro s
  cases ho : slots.get s with
  | none => exact .none
  | some o =>
    refine .some ?_
    cases s with
    | delay => exact nomatch h.delay.symm.trans ho
    | body => exact nomatch h.body.symm.trans ho
    | content => cases o <;> exact rfl
    | setting s =>
      cases s with
      | speed => exact nomatch h.speed.symm.trans ho
      | _ => exact rfl

end Slots

namespace UrlRule

variable {rule : UrlRule} {command : String}

/-- Another rule says the same as a rule in all that is not a float, and is written in the same way. -/
structure AgreesWith (again rule : UrlRule) : Prop where
  mode : again.mode = rule.mode
  content : again.slots.content = rule.slots.content
  settings : ∀ s, again.slots.get (.setting s) = rule.slots.get (.setting s)
  target : again.target.map UrlPattern.text = rule.target.map UrlPattern.text
  command : again.command = rule.command

theorem AgreesWith.refl (rule : UrlRule) : rule.AgreesWith rule :=
  ⟨rfl, rfl, fun _ => rfl, rfl, rfl⟩

theorem Sound.read_command_self (h : rule.Sound) (hexact : rule.slots.Exact) (hstart : rule.OpenStart)
    (hend : rule.OpenEnd) : Registry.standard.read rule.command = .ok (.url rule) := by
  refine h.read_command_iff.mpr ((h.reads_arguments hstart hend).mpr ⟨rfl, rule.slots, ?_, rfl⟩)
  exact hexact.rereads_self

/-- A rule that was read and has no floats is read back from its command exactly if its target is not taken for
an option of `chunked`. -/
theorem reread_iff_openEnd (h : Registry.standard.read command = .ok (.url rule))
    (hdelay : rule.slots.delay = none) (hbody : rule.slots.body = none) (hspeed : rule.slots.speed = none) :
    (∃ again, Registry.standard.read rule.command = .ok (.url again) ∧ again.AgreesWith rule) ↔
      rule.OpenEnd := by
  obtain ⟨hsound, hstart⟩ := sound_of_read h
  constructor
  · rintro ⟨again, hread, hagrees⟩
    by_contra hend
    obtain ⟨other, heq, hnone⟩ :=
      hsound.untargeted_of_not_openEnd hstart hend (hsound.read_command_iff.mp hread)
    cases heq
    have htarget : rule.target.map UrlPattern.text = none := by
      rw [← hagrees.target, hnone]
      rfl
    refine hend fun _ t ht => ?_
    rw [Option.map_eq_none_iff.mp htarget] at ht
    cases ht
  · intro hend
    exact ⟨rule, hsound.read_command_self ⟨hdelay, hbody, hspeed⟩ hstart hend, .refl rule⟩

private def chunkedOn (t : UrlPattern) : UrlRule := { slots := { chunked := some .on }, target := some t }

private theorem read_chunkedOn (text : String) {t : UrlPattern}
    (hwords : Text.words command = ["url", "chunked", "on", text]) (ht : UrlPattern.read text = .ok t)
    (hkeyword : text ∉ keywords) : Registry.standard.read command = .ok (.url (chunkedOn t)) := by
  have hb : Registry.standard.builder? "chunked" = some (.leaf .chunked) :=
    Registry.builder?_standard_iff.mpr .chunked
  have hchunked : Registry.standard.Builds ["chunked", "on", text] (.chunked .on) [text] := by
    rw [Registry.builds_leaf hb]
    exact Leaf.reads_chunked.mpr ⟨.on, Leaf.reads_framing.mpr (.inr (.inl ⟨rfl, rfl⟩)), rfl⟩
  exact read_part_target hwords (by decide) hchunked rfl hkeyword ht

/-- The command `url chunked g.cn` is read as what it was written from. -/
theorem reread_chunkedOn_host :
    ∃ rule : UrlRule, Registry.standard.read "url chunked on g.cn" = .ok (.url rule) ∧
      rule.command = "url chunked g.cn" ∧
      ∃ again, Registry.standard.read rule.command = .ok (.url again) ∧ again.AgreesWith rule := by
  let t : UrlPattern := ⟨"g.cn", some .host, "", []⟩
  have hread : Registry.standard.read "url chunked on g.cn" = .ok (.url (chunkedOn t)) :=
    read_chunkedOn "g.cn" (by decide +kernel) (by decide +kernel) (by decide)
  refine ⟨chunkedOn t, hread, by decide +kernel, (reread_iff_openEnd hread rfl rfl rfl).mpr ?_⟩
  intro _ other hother
  obtain rfl := Option.some.inj hother
  decide

/-- The domain `on` is written where the option of the same name may stand. -/
theorem not_reread_chunkedOn_on :
    ¬∀ (command : String) (rule : UrlRule), Registry.standard.read command = .ok (.url rule) →
      rule.slots.delay = none → rule.slots.body = none → rule.slots.speed = none →
      ∃ again, Registry.standard.read rule.command = .ok (.url again) ∧ again.AgreesWith rule := by
  intro h
  let t : UrlPattern := ⟨"on", some ⟨"on", .exact "on".toList, rfl⟩, "", []⟩
  have hread : Registry.standard.read "url chunked on on" = .ok (.url (chunkedOn t)) :=
    read_chunkedOn "on" (by decide +kernel) (by decide +kernel) (by decide)
  obtain ⟨hsound, hstart⟩ := sound_of_read hread
  obtain ⟨again, hagain, hagrees⟩ := h _ _ hread rfl rfl rfl
  have hend : ¬(chunkedOn t).OpenEnd := by
    intro hend
    exact hend rfl t rfl (by decide)
  obtain ⟨_, heq, hnone⟩ := hsound.untargeted_of_not_openEnd hstart hend (hsound.read_command_iff.mp hagain)
  cases heq
  have htarget := hagrees.target
  rw [hnone] at htarget
  cases htarget

end UrlRule

namespace DomainRule

variable {rule : DomainRule} {command : String}

structure AgreesWith (again rule : DomainRule) : Prop where
  action : again.action = rule.action
  shuffle : again.shuffle = rule.shuffle
  circular : again.circular = rule.circular
  limit : again.limit = rule.limit
  target : again.target.text = rule.target.text
  addresses : again.addresses = rule.addresses
  command : again.command = rule.command

theorem AgreesWith.refl (rule : DomainRule) : rule.AgreesWith rule :=
  ⟨rfl, rfl, rfl, rfl, rfl, rfl, rfl⟩

theorem Sound.read_command_self (h : rule.Sound) (hdelay : rule.delay = none) (hstart : rule.OpenStart) :
    Registry.standard.read rule.command = .ok (.domain rule) := by
  have hnone : rule.RereadsDelay none := by
    unfold RereadsDelay
    rw [hdelay]
    exact .none
  refine h.read_command_iff.mpr ((h.reads_arguments hstart).mpr ⟨rfl, none, hnone, ?_⟩)
  rw [← hdelay]

/-- A rule that was read and has no delay is read back from its command exactly if its target is not taken for
the name of a subcommand. -/
theorem reread_iff_openStart (h : Registry.standard.read command = .ok (.domain rule)) (hdelay : rule.delay = none) :
    (∃ again, Registry.standard.read rule.command = .ok (.domain again) ∧ again.AgreesWith rule) ↔
      rule.OpenStart := by
  have hsound : rule.Sound := Registry.sound_of_read h
  constructor
  · rintro ⟨again, hread, -⟩
    by_contra hstart
    obtain ⟨deletion, heq⟩ := not_domain_of_not_openStart hstart (hsound.read_command_iff.mp hread)
    cases heq
  · intro hstart
    exact ⟨rule, hsound.read_command_self hdelay hstart, .refl rule⟩

private def acting (action : DomainAction) (t : DomainTarget) : DomainRule := { action, target := t }

private theorem read_acting {m : Marker} {action : DomainAction} (text : String) {t : DomainTarget}
    (hwords : Text.words command = ["domain", m.keyword, text]) (hm : DomainAction.ofMarker? m = some action)
    (ht : DomainTarget.read text = .ok t) (hkeyword : text ∉ keywords) :
    Registry.standard.read command = .ok (.domain (acting action t)) := by
  have hmarker : m.keyword ∈ keywords ∧ m.keyword ≠ "delete" ∧
      DomainOptions.place {} (.marker m) = .ok { action := some m } := by
    cases m <;> first | exact ⟨by decide, by decide, rfl⟩ | cases hm
  obtain ⟨hoption, hdelete, hplace⟩ := hmarker
  rw [Registry.read_eq_ok_iff, hwords, Registry.builds_domain Registry.builder?_domain,
    Registry.reads_domainRule (by simpa using hdelete)]
  refine ⟨{ action := some m }, [text], ?_, ?_⟩
  · rw [Registry.reads_domainOptions_option hoption]
    have hbuild : Registry.standard.Builds [m.keyword, text] (.marker m) [text] :=
      (Registry.builds_leaf (Policy.builder?_marker m)).mpr ⟨rfl, rfl⟩
    exact ⟨_, [text], _, hbuild, hplace, (Registry.reads_domainOptions_target hkeyword).mpr ⟨rfl, rfl⟩⟩
  · refine DomainOptions.reads_readTarget.mpr ⟨rfl, text, t, ht, .inl ⟨rfl, ?_⟩⟩
    simp [DomainOptions.rule, acting, hm]

/-- An action that is written keeps the domain `delete` apart from the keyword. -/
theorem reread_block_delete :
    ∃ rule : DomainRule, Registry.standard.read "domain block delete" = .ok (.domain rule) ∧
      rule.command = "domain block delete" ∧
      ∃ again, Registry.standard.read rule.command = .ok (.domain again) ∧ again.AgreesWith rule := by
  let t : DomainTarget := .pattern ⟨"delete", .exact "delete".toList, rfl⟩
  have hread : Registry.standard.read "domain block delete" = .ok (.domain (acting .block t)) :=
    read_acting (m := .block) "delete" (by decide +kernel) rfl (by decide +kernel) (by decide)
  refine ⟨acting .block t, hread, by decide +kernel, (reread_iff_openStart hread rfl).mpr ?_⟩
  intro hparts
  cases hparts

/-- The action `default` is not written. Without it the domain `delete` is taken for a subcommand. -/
theorem not_reread_default_delete :
    ¬∀ (command : String) (rule : DomainRule), Registry.standard.read command = .ok (.domain rule) →
      rule.delay = none →
      ∃ again, Registry.standard.read rule.command = .ok (.domain again) ∧ again.AgreesWith rule := by
  intro h
  let t : DomainTarget := .pattern ⟨"delete", .exact "delete".toList, rfl⟩
  have hread : Registry.standard.read "domain default delete" = .ok (.domain (acting .resolve t)) :=
    read_acting (m := .default) "delete" (by decide +kernel) rfl (by decide +kernel) (by decide)
  have hsound : (acting .resolve t).Sound := Registry.sound_of_read hread
  obtain ⟨again, hagain, -⟩ := h _ _ hread rfl
  have hstart : ¬(acting .resolve t).OpenStart := fun hstart => hstart rfl rfl
  obtain ⟨deletion, heq⟩ := not_domain_of_not_openStart hstart (hsound.read_command_iff.mp hagain)
  cases heq

end DomainRule

end TrafficPolicy
