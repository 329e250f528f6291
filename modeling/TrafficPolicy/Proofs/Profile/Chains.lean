import TrafficPolicy.Proofs.Grammar.DomainRule
import TrafficPolicy.Proofs.Grammar.UrlRule
import TrafficPolicy.Proofs.Profile.Placement

/-!
# What a url policy has in effect

What a slot of a url policy holds was built by the registry, as a policy that belongs into this slot, whatever keywords
have been registered and however policies have been merged, emptied and linked. What the slot holds in effect is what
the nearest rule of the chain holds that fills it, and the description of the policy goes through the slots that are
filled in effect.
-/

namespace TrafficPolicy

open WordReader

/-! ## What is built belongs where it is -/

theorem Leaf.not_reads_url {leaf : Leaf} {words rest : List String} {rule : UrlRule} :
    ¬leaf.read.Reads words (.url rule) rest := by
  intro h
  cases leaf with
  | marker m => cases (reads_pure.mp h).1
  | flag switch f => cases (reads_pure.mp h).1
  | fixedSpeed rate => cases (reads_pure.mp h).1
  | text kind =>
    obtain ⟨_, _, -, -, hpolicy⟩ := reads_text.mp h
    cases hpolicy
  | map => rcases reads_map.mp h with ⟨_, _, -, -, hpolicy⟩ | ⟨_, -, -, -, hpolicy⟩ <;> cases hpolicy
  | chunked =>
    obtain ⟨_, -, hpolicy⟩ := reads_chunked.mp h
    cases hpolicy
  | speed =>
    obtain ⟨_, _, -, -, -, hpolicy⟩ := reads_speed.mp h
    cases hpolicy
  | status =>
    obtain ⟨_, _, -, -, -, -, hpolicy⟩ := reads_status.mp h
    cases hpolicy
  | limit =>
    obtain ⟨_, _, -, -, -, hpolicy⟩ := reads_limit.mp h
    cases hpolicy
  | delay kind =>
    obtain ⟨_, _, -, _, _, -, -, -, -, hpolicy⟩ := reads_delay.mp h
    cases hpolicy

namespace Registry

variable {registry : Registry} {keyword : String} {words rest : List String} {policy : Policy} {rule : UrlRule}

theorem builds_following (h : registry.builder? keyword = some .following) :
    registry.Builds (keyword :: words) policy rest ↔ registry.Builds words policy rest := by
  simp only [Builds, build, h]

/-- An occupant was built by the registry as a policy that belongs into the slot. -/
def Makes (registry : Registry) (s : Slot) (o : s.Occupant) : Prop :=
  (s.policy o).urlPart? = some (.occupant s o) ∧ ∃ words rest, registry.Builds words (s.policy o) rest

theorem Makes.not_body {d : DelayPolicy} (h : registry.Makes .delay d) : d.body = false := by
  obtain ⟨hpart, -⟩ := h
  simp only [Slot.policy, Policy.urlPart?, Option.some.injEq] at hpart
  split at hpart
  · cases hpart
  · rename_i hbody
    simpa using hbody

theorem Makes.body {d : DelayPolicy} (h : registry.Makes .body d) : d.body = true := by
  obtain ⟨hpart, -⟩ := h
  simp only [Slot.policy, Policy.urlPart?, Option.some.injEq] at hpart
  split at hpart
  · assumption
  · cases hpart

/-- Words are read as a rule, whatever has been registered for `url`. -/
def ReadsRule (registry : Registry) (words : List String) (rule : UrlRule) : Prop :=
  ∃ parts mid, Reads (registry.urlParts {}) words parts mid ∧ parts.readTarget.Reads mid (.url rule) []

theorem ReadsRule.makes (h : registry.ReadsRule words rule) :
    ∀ s o, rule.slots.get s = some o → registry.Makes s o := by
  obtain ⟨parts, mid, hparts, htarget⟩ := h
  have hslots : rule.slots = parts.slots := by
    obtain ⟨-, ⟨-, hrule⟩ | ⟨_, _, -, -, hrule⟩⟩ := UrlRule.reads_readTarget.mp htarget <;> cases hrule <;> rfl
  rw [hslots]
  have hkeeps := registry.readsParts_url.keeps (I := fun rule => ∀ s o, rule.slots.get s = some o → registry.Makes s o)
    (Q := fun _ => True) (by
      rintro rule next word words rest policy hrule - - hbuild hplace
      rcases UrlRule.placePolicy_cases hplace with ⟨mode, -, rfl⟩ | ⟨s, o, hpart, rfl⟩
      · exact hrule
      · obtain rfl := Policy.eq_policy_of_part hpart
        refine Slots.forall_put hrule fun o' ho' => ?_
        exact Option.some.inj ho' ▸ ⟨hpart, _, _, hbuild⟩) (fun _ _ => trivial) (by simp) hparts
  exact hkeeps.1

theorem readsRule_of_buildUrl (h : Reads registry.buildUrl words (.url rule) rest) : registry.ReadsRule words rule := by
  rcases reads_buildUrl_cases h with ⟨_, -, hremoval⟩ | ⟨_, -, hdeletion⟩ | ⟨parts, mid, hparts, htarget⟩
  · obtain ⟨_, -, -, -, hpolicy⟩ := reads_removal.mp hremoval
    cases hpolicy
  · obtain ⟨_, -, hpolicy⟩ := reads_deletion.mp hdeletion
    cases hpolicy
  · obtain ⟨rfl, -⟩ := UrlRule.reads_readTarget.mp htarget
    exact ⟨parts, mid, hparts, htarget⟩

theorem not_reads_buildDomain : ¬Reads registry.buildDomain words (.url rule) rest := by
  intro h
  rcases reads_buildDomain_cases h with ⟨_, -, hdeletion⟩ | ⟨_, _, -, htarget⟩
  · obtain ⟨_, -, hpolicy⟩ := reads_deletion.mp hdeletion
    cases hpolicy
  · obtain ⟨-, _, _, -, ⟨-, hpolicy⟩ | ⟨_, _, -, -, hpolicy⟩⟩ := DomainOptions.reads_readTarget.mp htarget <;>
      cases hpolicy

/-- A rule that is built has been read as one, behind any number of words that say what follows. -/
theorem exists_readsRule (h : registry.Builds words (.url rule) rest) : ∃ words, registry.ReadsRule words rule := by
  induction words with
  | nil => exact absurd h not_builds_nil
  | cons keyword words ih =>
    cases hbuilder : registry.builder? keyword with
    | none => exact absurd h (not_builds_of_unknown hbuilder)
    | some builder =>
      cases builder with
      | leaf leaf => exact absurd ((builds_leaf hbuilder).mp h) Leaf.not_reads_url
      | following => exact ih ((builds_following hbuilder).mp h)
      | url => exact ⟨words, readsRule_of_buildUrl ((builds_url hbuilder).mp h)⟩
      | domain => exact absurd ((builds_domain hbuilder).mp h) not_reads_buildDomain

theorem exists_builds_of_readUrl {command : String} (h : registry.readUrl command = .ok rule) :
    ∃ words rest, registry.Builds words (.url rule) rest := by
  unfold readUrl at h
  dsimp only at h
  generalize (if (Text.words command).head? = some "url" then Text.words command
    else "url" :: Text.words command) = words at h
  cases hbuilt : (registry.build words).1 with
  | error e =>
    rw [hbuilt] at h
    cases h
  | ok policy =>
    rw [hbuilt] at h
    cases hfinish : (finish "url").run (registry.build words).2.val with
    | error e =>
      simp only [bind, Except.bind, hfinish] at h
      cases h
    | ok left =>
      simp only [bind, Except.bind, hfinish] at h
      cases policy with
      | url built =>
        obtain rfl := Except.ok.inj h
        exact ⟨words, _, hbuilt, rfl⟩
      | _ => cases h

end Registry

/-! ## Chains -/

/-- What a slot holds in effect is the occupant of the nearest rule that fills it. -/
inductive UrlRule.Nearest (s : Slot) (o : s.Occupant) : List UrlRule → Prop
  | here {rule : UrlRule} {rules : List UrlRule} : rule.slots.get s = some o → Nearest s o (rule :: rules)
  | later {rule : UrlRule} {rules : List UrlRule} : rule.slots.get s = none → Nearest s o rules →
      Nearest s o (rule :: rules)

theorem UrlRule.findSome?_eq_some_iff_nearest {s : Slot} {o : s.Occupant} {rules : List UrlRule} :
    rules.findSome? (fun rule => rule.slots.get s) = some o ↔ Nearest s o rules := by
  induction rules with
  | nil => simp [show ¬Nearest s o [] from nofun]
  | cons rule rules ih =>
    rw [List.findSome?_cons]
    constructor
    · intro h
      cases hs : rule.slots.get s with
      | none =>
        rw [hs] at h
        exact .later hs (ih.mp h)
      | some own =>
        rw [hs] at h
        exact .here (hs.trans h)
    · rintro (hs | ⟨hs, hrules⟩)
      · rw [hs]
      · rw [hs]
        exact ih.mpr hrules

def Slot.texts : List Slot :=
  [Setting.contentType, .requestHeaders, .responseHeaders, .host, .plugin].map .setting

theorem Slot.isSome_text? {s : Slot} (h : s ∈ texts) (o : s.Occupant) : (s.text? o).isSome := by
  simp only [texts, List.map_cons, List.map_nil, List.mem_cons, List.not_mem_nil, or_false] at h
  rcases h with rfl | rfl | rfl | rfl | rfl <;> rfl

namespace UrlPolicy

variable {registry : Registry} {p : UrlPolicy} {s : Slot}

/-- The url policies that are read with a registry and made of each other. -/
inductive Obtained (registry : Registry) : UrlPolicy → Prop
  | parsed {words : List String} {rule : UrlRule} : registry.ReadsRule words rule → Obtained registry ⟨rule, []⟩
  | update {p other : UrlPolicy} : Obtained registry p → Obtained registry other →
      Obtained registry (p.mapRule fun rule => rule.update other.rule)
  | remove {p : UrlPolicy} (s : Slot) : Obtained registry p → Obtained registry (p.mapRule fun rule => rule.remove s)
  | link {p default : UrlPolicy} : Obtained registry p → Obtained registry default →
      Obtained registry (p.link (some default))
  | unlink {p : UrlPolicy} : Obtained registry p → Obtained registry (p.link none)
  | unmode {p : UrlPolicy} : Obtained registry p → Obtained registry (p.mapRule fun rule => { rule with mode := none })

theorem Obtained.makes (h : Obtained registry p) :
    ∀ rule ∈ p.chain, ∀ s o, rule.slots.get s = some o → registry.Makes s o := by
  induction h with
  | parsed hreads =>
    intro rule hrule
    obtain rfl := List.mem_singleton.mp hrule
    exact hreads.makes
  | @update p other _ _ ih ihother =>
    rintro rule (_ | ⟨_, hrule⟩)
    · exact UrlRule.forall_update (ih p.rule List.mem_cons_self) (ihother other.rule List.mem_cons_self)
    · exact ih rule (List.mem_cons_of_mem _ hrule)
  | @remove p s _ ih =>
    rintro rule (_ | ⟨_, hrule⟩)
    · exact Slots.forall_put (ih p.rule List.mem_cons_self) (by simp)
    · exact ih rule (List.mem_cons_of_mem _ hrule)
  | @link p default _ _ ih ihdefault =>
    rintro rule (_ | ⟨_, hrule⟩)
    · exact ih p.rule List.mem_cons_self
    · exact ihdefault rule hrule
  | @unlink p _ ih =>
    intro rule hrule
    obtain rfl := List.mem_singleton.mp hrule
    exact ih p.rule List.mem_cons_self
  | @unmode p _ ih =>
    rintro rule (_ | ⟨_, hrule⟩)
    · exact ih p.rule List.mem_cons_self
    · exact ih rule (List.mem_cons_of_mem _ hrule)

theorem Obtained.of_builds {words rest : List String} {rule : UrlRule} (h : registry.Builds words (.url rule) rest) :
    Obtained registry ⟨rule, []⟩ := by
  obtain ⟨_, hreads⟩ := Registry.exists_readsRule h
  exact .parsed hreads

theorem Obtained.of_read {command : String} {rule : UrlRule} (h : registry.read command = .ok (.url rule)) :
    Obtained registry ⟨rule, []⟩ :=
  .of_builds (Registry.read_eq_ok_iff.mp h)

theorem Obtained.of_readUrl {command : String} {rule : UrlRule} (h : registry.readUrl command = .ok rule) :
    Obtained registry ⟨rule, []⟩ := by
  obtain ⟨_, _, hbuilds⟩ := Registry.exists_builds_of_readUrl h
  exact .of_builds hbuilds

/-! ## What is filled in effect -/

theorem get_eq_some_iff_nearest {o : s.Occupant} : p.get s = some o ↔ UrlRule.Nearest s o p.chain :=
  UrlRule.findSome?_eq_some_iff_nearest

theorem mem_filled_iff_chain : s ∈ p.filled ↔ ∃ rule ∈ p.chain, (rule.slots.get s).isSome := by
  simp [filled, Slots.filled, s.mem_all]

theorem mem_filled_iff : s ∈ p.filled ↔ (p.get s).isSome := by
  rw [mem_filled_iff_chain, get, List.findSome?_isSome_iff]

theorem text?_eq_some_iff {value : String} :
    p.text? s = some value ↔ ∃ o, UrlRule.Nearest s o p.chain ∧ s.text? o = some value := by
  simp only [text?, Option.bind_eq_some_iff, get_eq_some_iff_nearest]

theorem isSome_text?_iff (h : s ∈ Slot.texts) : (p.text? s).isSome ↔ s ∈ p.filled := by
  rw [mem_filled_iff, text?]
  cases hs : p.get s with
  | none => simp
  | some o => simp [Slot.isSome_text? h o]

/-! ## Descriptions -/

/-- The part of a description that is about a slot. Only what is not the policy's own is marked. -/
inductive Describes (p : UrlPolicy) (s : Slot) : String → Prop
  | own {o : s.Occupant} : p.rule.slots.get s = some o → Describes p s (s.comment o)
  | inherited {o : s.Occupant} : p.rule.slots.get s = none → UrlRule.Nearest s o p.defaults →
      Describes p s ("[default: " ++ s.comment o ++ "]")

theorem slotComment?_of_get {o : s.Occupant} (h : p.get s = some o) :
    ∃ part, p.slotComment? s = some part ∧ p.Describes s part := by
  unfold slotComment?
  cases get_eq_some_iff_nearest.mp h with
  | here hs => exact ⟨_, by rw [hs], .own hs⟩
  | later hs hdefaults => exact ⟨_, by rw [hs, h]; rfl, .inherited hs hdefaults⟩

theorem forall₂_describes {ss : List Slot} (h : ∀ s ∈ ss, (p.get s).isSome) :
    List.Forall₂ p.Describes ss (ss.filterMap p.slotComment?) := by
  induction ss with
  | nil => exact .nil
  | cons s ss ih =>
    rw [List.forall_mem_cons] at h
    obtain ⟨o, hs⟩ := Option.isSome_iff_exists.mp h.1
    obtain ⟨part, hpart, hdescribes⟩ := slotComment?_of_get hs
    rw [List.filterMap_cons_some hpart]
    exact .cons hdescribes (ih h.2)

theorem comment_eq (p : UrlPolicy) : ∃ parts,
    p.comment = p.label ++ ": " ++ (if parts = [] then "pass through" else Text.joinWith "; " parts) ∧
      List.Forall₂ p.Describes p.filled parts :=
  ⟨p.filled.filterMap p.slotComment?, by simp only [comment, List.isEmpty_iff],
    forall₂_describes fun _ => mem_filled_iff.mp⟩

/-- In each rule of a chain the slots hold what belongs there, so a body delay is held by the slot for it and by no
other. A slot is filled in effect if a rule of the chain fills it, and holds what the nearest such rule holds. The
description has one part for each slot that is filled in effect, in their order. -/
theorem Obtained.holds_in_effect (h : Obtained registry p) :
    (∀ rule ∈ p.chain, (∀ d ∈ rule.slots.delay, d.body = false) ∧ (∀ d ∈ rule.slots.body, d.body = true) ∧
      ∀ s o, rule.slots.get s = some o → registry.Makes s o) ∧
    (∀ s, s ∈ p.filled ↔ ∃ rule ∈ p.chain, (rule.slots.get s).isSome) ∧
    (∀ s, s ∈ p.filled ↔ (p.get s).isSome) ∧
    (∀ s o, p.get s = some o ↔ UrlRule.Nearest s o p.chain) ∧
    (∀ s ∈ Slot.texts, ((p.text? s).isSome ↔ s ∈ p.filled) ∧
      ∀ value, p.text? s = some value ↔ ∃ o, UrlRule.Nearest s o p.chain ∧ s.text? o = some value) ∧
    p.filled.Sublist Slot.all ∧ ∃ parts,
      p.comment = p.label ++ ": " ++ (if parts = [] then "pass through" else Text.joinWith "; " parts) ∧
        List.Forall₂ p.Describes p.filled parts := by
  refine ⟨fun rule hrule => ⟨fun d hd => ?_, fun d hd => ?_, h.makes rule hrule⟩, fun s => mem_filled_iff_chain,
    fun s => mem_filled_iff, fun s o => get_eq_some_iff_nearest,
    fun s hs => ⟨isSome_text?_iff hs, fun value => text?_eq_some_iff⟩, List.filter_sublist, comment_eq p⟩
  · exact (h.makes rule hrule .delay d hd).not_body
  · exact (h.makes rule hrule .body d hd).body

/-- One keyword says that another one follows, and the word for a status says a flag. The slots are those of what is
built, not those of the keywords. -/
theorem Obtained.holds_in_effect_registered : ∃ registry p, registry.builder? "host" = some .following ∧
    Obtained registry p ∧ p.comment = "default: serve from cache; [default: keep redirects]" ∧
      p.filled = [.content, .setting .dont302] ∧ UrlRule.Nearest .content .cache p.chain := by
  let keep : Flag := ⟨true, "status", "keep redirects"⟩
  let registry := (Registry.standard.register "host" .following).register "status" (.leaf (.flag .dont302 keep))
  have hhost : registry.builder? "host" = some .following :=
    (Registry.builder?_register_of_ne _ _ (by decide)).trans (Registry.builder?_register_self _ _ _)
  have hcache : registry.builder? "cache" = some (.leaf (.marker .cache)) :=
    (Registry.builder?_register_of_ne _ _ (by decide)).trans <|
      (Registry.builder?_register_of_ne _ _ (by decide)).trans (Registry.builder?_standard_iff.mpr (.marker .cache))
  have hstatus : registry.builder? "status" = some (.leaf (.flag .dont302 keep)) :=
    Registry.builder?_register_self _ _ _
  let own : UrlRule := { slots := { content := some .cache } }
  let general : UrlRule := { slots := { dont302 := some keep } }
  have hown : registry.ReadsRule ["host", "cache"] own := by
    refine ⟨own, [], (Registry.reads_urlParts_part (by decide)).mpr ?_,
      UrlRule.reads_readTarget.mpr ⟨rfl, .inl ⟨rfl, rfl⟩⟩⟩
    exact ⟨_, [], _, (Registry.builds_following hhost).mpr ((Registry.builds_leaf hcache).mpr ⟨rfl, rfl⟩), rfl,
      Registry.reads_urlParts_nil.mpr ⟨rfl, rfl⟩⟩
  have hgeneral : registry.ReadsRule ["status"] general := by
    refine ⟨general, [], (Registry.reads_urlParts_part (by decide)).mpr ?_,
      UrlRule.reads_readTarget.mpr ⟨rfl, .inl ⟨rfl, rfl⟩⟩⟩
    exact ⟨_, [], _, (Registry.builds_leaf hstatus).mpr ⟨rfl, rfl⟩, rfl, Registry.reads_urlParts_nil.mpr ⟨rfl, rfl⟩⟩
  have hobtained : Obtained registry ⟨own, [general]⟩ := .link (.parsed hown) (.parsed hgeneral)
  obtain ⟨-, -, -, hnearest, -⟩ := hobtained.holds_in_effect
  exact ⟨registry, _, hhost, hobtained, by decide, by decide, (hnearest .content .cache).mp rfl⟩

/-! ## The policies of a profile -/

theorem Obtained.empty : Obtained registry ⟨{}, []⟩ :=
  .parsed ⟨{}, [], Registry.reads_urlParts_nil.mpr ⟨rfl, rfl⟩, UrlRule.reads_readTarget.mpr ⟨rfl, .inl ⟨rfl, rfl⟩⟩⟩

theorem Obtained.merge {rule : UrlRule} (h : Obtained registry p) (hrule : Obtained registry ⟨rule, []⟩) :
    Obtained registry (p.merge rule) :=
  (h.update hrule).unmode

theorem Obtained.relink {default? : Option UrlPolicy} (h : Obtained registry p)
    (hdefault : ∀ default ∈ default?, Obtained registry default) : Obtained registry (p.link default?) := by
  cases default? with
  | none => exact h.unlink
  | some default => exact h.link (hdefault default rfl)

end UrlPolicy

namespace Profile

open UrlPolicy (Obtained)

variable {registry : Registry} {p q : Profile}

structure UrlsObtained (registry : Registry) (p : Profile) : Prop where
  default : ∀ default ∈ p.defaultUrl, Obtained registry default
  urls : ∀ url ∈ p.urls, Obtained registry url

theorem UrlsObtained.relink (h : UrlsObtained registry p) {default? : Option UrlPolicy}
    (hdefault : ∀ default ∈ default?, Obtained registry default) :
    UrlsObtained registry (Profile.relink { p with defaultUrl := default? }) where
  default := hdefault
  urls := by
    intro url hurl
    obtain ⟨old, hold, rfl⟩ := List.mem_map.mp hurl
    exact (h.urls old hold).relink hdefault

theorem UrlsObtained.mapUrl (h : UrlsObtained registry p) (target : String) {f : UrlPolicy → UrlPolicy}
    (hf : ∀ url, Obtained registry url → Obtained registry (f url)) : UrlsObtained registry (p.mapUrl target f) where
  default := h.default
  urls := by
    intro url hurl
    obtain ⟨old, hold, rfl⟩ := List.mem_map.mp hurl
    split
    · exact hf old (h.urls old hold)
    · exact h.urls old hold

theorem UrlsObtained.applyUrl (h : UrlsObtained registry p) {rule : UrlRule} (hrule : Obtained registry ⟨rule, []⟩) :
    UrlsObtained registry (p.applyUrl rule) := by
  unfold Profile.applyUrl
  split
  · have hold : Obtained registry (p.defaultUrl.getD ⟨{}, []⟩) := by
      cases hdefault : p.defaultUrl with
      | none => exact .empty
      | some default => exact h.default default hdefault
    have hrelinked := h.relink fun default hdefault => Option.some.inj hdefault ▸ hold.merge hrule
    exact ⟨hrelinked.default, hrelinked.urls⟩
  · rename_i target _
    unfold applyTargeted
    split
    · have hmapped := h.mapUrl target.text fun url hurl => hurl.merge hrule
      exact ⟨hmapped.default, hmapped.urls⟩
    · refine ⟨h.default, fun url hurl => ?_⟩
      rcases List.mem_append.mp hurl with hold | hnew
      · exact h.urls url hold
      · rw [List.mem_singleton.mp hnew]
        exact hrule.unmode.relink h.default

theorem UrlsObtained.applyRemoval (h : UrlsObtained registry p) (removal : Removal) :
    UrlsObtained registry (p.applyRemoval removal) := by
  unfold Profile.applyRemoval
  split
  · have htrimmed : UrlsObtained registry
        { p with urls := p.urls.map fun url => url.mapRule fun rule => rule.remove removal.slot } := by
      refine ⟨h.default, fun url hurl => ?_⟩
      obtain ⟨old, hold, rfl⟩ := List.mem_map.mp hurl
      exact (h.urls old hold).remove removal.slot
    refine htrimmed.relink fun default hdefault => ?_
    obtain ⟨old, hold, rfl⟩ := Option.map_eq_some_iff.mp hdefault
    exact (h.default old hold).remove removal.slot
  · split
    · exact h
    · exact h.mapUrl _ fun url hurl => hurl.remove removal.slot

theorem UrlsObtained.applyDeletion (h : UrlsObtained registry p) (deletion : Deletion) :
    UrlsObtained registry (p.applyDeletion deletion) := by
  unfold Profile.applyDeletion
  split
  · exact ⟨by simp, by simp⟩
  · split
    · exact h
    · exact ⟨h.default, fun url hurl => h.urls url (List.mem_filter.mp hurl).1⟩
  · exact ⟨h.default, h.urls⟩
  · exact ⟨h.default, h.urls⟩

theorem Formed.urlsObtained {policies : List Policy} (h : Formed registry policies p) : UrlsObtained registry p := by
  induction h with
  | fresh => exact ⟨by simp, by simp⟩
  | @accept _ p q policy _ shuffler _ hread happly ih =>
    cases policy with
    | url rule =>
      cases happly
      exact ih.applyUrl (.of_read hread)
    | remove removal =>
      cases happly
      exact ih.applyRemoval removal
    | delete deletion =>
      cases happly
      exact ih.applyDeletion deletion
    | domain rule =>
      cases happly
      obtain ⟨hdefault, hurls, -⟩ := urls_applyDomain p shuffler rule
      exact ⟨hdefault ▸ ih.default, hurls ▸ ih.urls⟩
    | _ => cases happly
  | use policy place _ ih =>
    exact ⟨by simpa using ih.default, by simpa using ih.urls⟩
  | drop policy now _ ih =>
    exact ⟨by simpa using ih.default, by simpa using ih.urls⟩

/-- Whatever has happened to a profile, its url policies are read with the registry and made of each other. -/
theorem Reachable.urlsObtained (h : Reachable registry p) : UrlsObtained registry p := by
  obtain ⟨policies, hformed⟩ := h.formed
  exact hformed.urlsObtained

end Profile

end TrafficPolicy
