import TrafficPolicy.Proofs.Grammar.Verbatim
import TrafficPolicy.Proofs.Profile.Definitions
import TrafficPolicy.Proofs.Profile.SoundRules

/-!
# Taking one policy away

The text of a target, written as a word, names the policy that is stored for it. A deletion of that text takes this
policy away and no other, and a removal empties one slot of it and no other. A url policy for the word that names
all targets is the exception: that word does not name it.
-/

namespace TrafficPolicy

open Text

/-! ## Members with distinct keys -/

section Keys

variable {α β : Type} {key : α → β} {before after : List α} {item : α}

theorem key_ne (h : ((before ++ item :: after).map key).Nodup) :
    (∀ other ∈ before, key other ≠ key item) ∧ ∀ other ∈ after, key other ≠ key item := by
  rw [List.map_append, List.map_cons, List.nodup_middle, List.nodup_cons, List.mem_append] at h
  obtain ⟨hfresh, -⟩ := h
  exact ⟨fun other hother heq => hfresh (.inl (List.mem_map.mpr ⟨other, hother, heq⟩)),
    fun other hother heq => hfresh (.inr (List.mem_map.mpr ⟨other, hother, heq⟩))⟩

/-- Leaving out one key leaves out one member. -/
private theorem filter_key_ne [BEq β] [LawfulBEq β] (h : ((before ++ item :: after).map key).Nodup) :
    (before ++ item :: after).filter (fun other => key other != key item) = before ++ after := by
  obtain ⟨hbefore, hafter⟩ := key_ne h
  rw [List.filter_append, List.filter_cons_of_neg (by simp),
    List.filter_eq_self.mpr fun other hother => bne_iff_ne.mpr (hbefore other hother),
    List.filter_eq_self.mpr fun other hother => bne_iff_ne.mpr (hafter other hother)]

/-- Changing the members of one key changes one member. -/
theorem map_key_eq [DecidableEq β] (h : ((before ++ item :: after).map key).Nodup) (f : α → α) :
    (before ++ item :: after).map (fun other => if key other = key item then f other else other) =
      before ++ f item :: after := by
  obtain ⟨hbefore, hafter⟩ := key_ne h
  have hkeep : ∀ items : List α, (∀ other ∈ items, key other ≠ key item) →
      items.map (fun other => if key other = key item then f other else other) = items := fun items hitems =>
    (List.map_congr_left fun other hother => if_neg (hitems other hother)).trans (List.map_id' items)
  rw [List.map_append, List.map_cons, hkeep before hbefore, hkeep after hafter, if_pos rfl]

end Keys

theorem DomainPolicy.rule_answer {answerer : Dns.Answerer} {domain : String} {factor : Float} {now : Nat}
    (policy : DomainPolicy) :
    ((answerer.answer domain (some policy) factor now).policy.getD policy).rule = policy.rule := by
  rcases answer_cases policy answerer domain factor now with ⟨-, -, hpolicy⟩ | ⟨-, -, hpolicy⟩
  · rw [hpolicy]
    exact rule_next policy
  · rw [hpolicy]
    rfl

namespace Profile

variable {p : Profile} {place : DomainPlace} {policy later : DomainPolicy}

/-! ## The rules of every profile that there can be -/

theorem ledger_putDomain (h : p.domainAt? place = some policy) (hrule : later.rule = policy.rule) :
    (p.putDomain later place).ledger = p.ledger := by
  cases place with
  | fallback =>
    have hdefault : p.defaultDomain = some policy := h
    simp [putDomain, ledger, hdefault, hrule]
  | pattern index =>
    obtain ⟨hindex, hget⟩ := List.getElem?_eq_some_iff.mp h
    simp only [putDomain, ledger, List.map_set, hrule, ← hget]
    rw [← List.getElem_map DomainPolicy.rule (h := by simpa using hindex), List.set_getElem_self]

theorem ledger_shouldDrop (p : Profile) (policy : UrlPolicy) (now : Nat) :
    (p.shouldDrop policy now).2.ledger = p.ledger := by
  unfold shouldDrop
  split <;> rfl

theorem Reachable.apply {registry : Registry} {q : Profile} {command : String} (h : Reachable registry p)
    (shuffler : Shuffler) (happly : p.apply registry shuffler command = .ok q) : Reachable registry q := by
  have hstep := h.step .fallback (.command shuffler command)
  simpa only [Profile.step, happly] using hstep

/-- What every accepted command keeps of the rules, everything that happens to a profile keeps. -/
theorem Reachable.ledger_induct {registry : Registry} {I : Ledger → Prop} (fresh : I {})
    (apply : ∀ {p q : Profile} {command : String} {shuffler : Shuffler} {policy : Policy}, I p.ledger →
      registry.read command = .ok policy → p.applyPolicy shuffler policy = .ok q → I q.ledger)
    (h : Reachable registry p) : I p.ledger := by
  induction h with
  | fresh => exact fresh
  | step place step _ ih =>
    cases step with
    | next =>
      simp only [Profile.step]
      split
      · exact ih
      · rename_i policy hpolicy
        rwa [ledger_putDomain hpolicy (DomainPolicy.rule_next policy)]
    | answer answerer domain factor now =>
      simp only [Profile.step]
      split
      · exact ih
      · rename_i policy hpolicy
        rwa [ledger_putDomain hpolicy (DomainPolicy.rule_answer policy)]
    | command shuffler text =>
      simp only [Profile.step]
      split
      · rename_i next happly
        obtain ⟨policy, hread, hpolicy⟩ := apply_eq_ok_iff.mp happly
        exact apply ih hread hpolicy
      · exact ih
  | drop policy now _ ih => rwa [ledger_shouldDrop]

/-- Whatever has happened to a profile, its rules can be written, and each domain has one of them. -/
theorem Reachable.sound_ledger (h : Reachable .standard p) : p.ledger.Sound :=
  h.ledger_induct Ledger.sound_empty fun {p _ _ shuffler policy} hp hread happly => by
    have hledger := ledger_applyPolicy p shuffler policy
    rw [happly] at hledger
    exact hp.applyPolicy (Registry.sound_of_read hread) hledger.symm

theorem Reachable.wellLinked {registry : Registry} (h : Reachable registry p) : p.WellLinked := by
  obtain ⟨policies, hformed⟩ := h.formed
  exact hformed.wellLinked

/-! ## Policies that are named by their target -/

variable {before after : List UrlPolicy} {url : UrlPolicy} {text : String}

/-- The target of a url policy has been read from its text. -/
theorem Reachable.read_target (h : Reachable .standard p) (hurl : url ∈ p.urls) (htext : url.target? = some text) :
    Plain text ∧ ∃ pattern, UrlPattern.read text = .ok pattern ∧ urlKey? text = some text := by
  obtain ⟨pattern, hpattern, rfl⟩ := Option.map_eq_some_iff.mp htext
  have hmem : url.rule ∈ p.ledger.urlRules := List.mem_append_right _ (List.mem_map_of_mem hurl)
  obtain ⟨hread, hplain, -⟩ := (h.sound_ledger.urls url.rule hmem).target pattern hpattern
  exact ⟨hplain, pattern, hread, by rw [urlKey?, hread]⟩

theorem Reachable.apply_urlDeletion (h : Reachable .standard p) (hurls : p.urls = before ++ url :: after)
    (htext : url.target? = some text) (hall : text ≠ "all") (shuffler : Shuffler) :
    p.apply .standard shuffler ("url delete " ++ quote text) =
      .ok { p with urls := before ++ after, drops := p.drops.reset text } := by
  obtain ⟨hplain, -, -, hkey⟩ := h.read_target (by simp [hurls]) htext
  have hdistinct := h.wellLinked.distinct
  rw [hurls] at hdistinct
  have hfilter := filter_key_ne hdistinct
  rw [htext, ← hurls] at hfilter
  refine apply_eq_ok_iff.mpr ⟨_, Registry.read_deletion .url hplain, ?_⟩
  simp only [applyPolicy, applyDeletion, TargetName.ofText, if_neg hall, hkey, hfilter]

theorem Reachable.apply_removal (h : Reachable .standard p) (hurls : p.urls = before ++ url :: after)
    (htext : url.target? = some text) (hall : text ≠ "all") {keyword : String} {slot : Slot}
    (hslot : Slot.ofKeyword? keyword = some slot) (shuffler : Shuffler) :
    p.apply .standard shuffler ("url remove " ++ keyword ++ " " ++ quote text) =
      .ok { p with urls := before ++ { url with rule := url.rule.remove slot } :: after } := by
  obtain ⟨hplain, pattern, hpattern, hkey⟩ := h.read_target (by simp [hurls]) htext
  have hdistinct := h.wellLinked.distinct
  rw [hurls] at hdistinct
  have hmap := map_key_eq hdistinct fun url => url.mapRule fun rule => rule.remove slot
  rw [htext, ← hurls] at hmap
  have hname : readTargetName text = .ok (.named text) := by
    simp [readTargetName, TargetName.ofText, hall, hpattern, Except.map]
  refine apply_eq_ok_iff.mpr ⟨_, Registry.read_removal hslot hplain hname, ?_⟩
  simp only [applyPolicy, applyRemoval, hkey, mapUrl, hmap]
  rfl

theorem Reachable.apply_domainDeletion (h : Reachable .standard p) {before after : List DomainPolicy}
    {domain : DomainPolicy} (hdomains : p.domains = before ++ domain :: after) (shuffler : Shuffler) :
    p.apply .standard shuffler ("domain delete " ++ quote domain.rule.target.text) =
      .ok { p with domains := before ++ after } := by
  have hmem : domain.rule ∈ p.ledger.domains := by simp [ledger, hdomains]
  obtain ⟨hsound, htarget⟩ := h.sound_ledger.domains domain.rule hmem
  -- The text is not the word for all domains, as it is read as a pattern.
  have hall : domain.rule.target.text ≠ "all" := by
    intro hall
    have hread := hsound.target
    rw [hall] at hread
    exact htarget (Except.ok.inj hread).symm
  have hkeys : p.ledger.domains.map DomainRule.key = p.domains.map DomainPolicy.key := by
    rw [ledger, List.map_map]
    rfl
  have hdistinct := h.sound_ledger.distinct
  rw [hkeys, hdomains] at hdistinct
  have hfilter := filter_key_ne hdistinct
  rw [← hdomains] at hfilter
  refine apply_eq_ok_iff.mpr ⟨_, Registry.read_deletion .domain hsound.plain_target, ?_⟩
  simp only [applyPolicy, applyDeletion, TargetName.ofText, if_neg hall]
  exact congrArg (fun domains => Except.ok { p with domains }) hfilter

/-- The text of a target takes away what is stored for it, or empties one slot of it, and changes nothing else. -/
theorem Reachable.withdraws_named (h : Reachable .standard p) (shuffler : Shuffler) :
    (∀ before url after text, p.urls = before ++ url :: after → url.target? = some text → text ≠ "all" →
      p.apply .standard shuffler ("url delete " ++ quote text) =
          .ok { p with urls := before ++ after, drops := p.drops.reset text } ∧
        ∀ keyword slot, Slot.ofKeyword? keyword = some slot → ∃ slots,
          p.apply .standard shuffler ("url remove " ++ keyword ++ " " ++ quote text) =
              .ok { p with urls := before ++ { url with rule := { url.rule with slots } } :: after } ∧
            slots.get slot = none ∧ ∀ other, other ≠ slot → slots.get other = url.rule.slots.get other) ∧
      ∀ before domain after, p.domains = before ++ domain :: after →
        p.apply .standard shuffler ("domain delete " ++ quote domain.rule.target.text) =
          .ok { p with domains := before ++ after } := by
  refine ⟨fun before url after text hurls htext hall => ⟨h.apply_urlDeletion hurls htext hall shuffler, ?_⟩,
    fun before domain after hdomains => h.apply_domainDeletion hdomains shuffler⟩
  intro keyword slot hslot
  exact ⟨url.rule.slots.put slot none, h.apply_removal hurls htext hall hslot shuffler,
    Slots.get_put_self _ _ _, fun other hother => Slots.get_put_of_ne _ _ hother⟩

/-- The pattern for a path with a blank in it. -/
private def spacedPath : UrlPattern := ⟨"g.cn/a b", some .host, "/a b", []⟩

private def cachedSpaced : UrlRule := { slots := { content := some .cache }, target := some spacedPath }

private theorem read_cachedSpaced :
    Registry.standard.read "url cache \"g.cn/a b\"" = .ok (.url cachedSpaced) := by
  have hw : words "url cache \"g.cn/a b\"" = ["url", "cache", "g.cn/a b"] := by decide
  have hb : Registry.standard.builder? "cache" = some (.leaf (.marker .cache)) :=
    Registry.builder?_standard_iff.mpr (.marker .cache)
  exact UrlRule.read_part_target hw (by decide) ((Registry.builds_leaf hb).mpr ⟨rfl, rfl⟩) rfl (by decide)
    (by decide)

def domainRule (pattern : DomainPattern) : DomainRule :=
  { target := .pattern pattern }

theorem read_domainRule {pattern : DomainPattern} {command : String} (hw : words command = ["domain", pattern.text])
    (hk : pattern.text ∉ DomainRule.keywords) (hd : pattern.text ≠ "delete") (ha : pattern.text ≠ "all") :
    Registry.standard.read command = .ok (.domain (domainRule pattern)) := by
  have hp : DomainTarget.read pattern.text = .ok (.pattern pattern) := by
    rw [DomainTarget.read, if_neg ha, pattern.read_text]
    rfl
  rw [Registry.read_eq_ok_iff, hw, Registry.builds_domain Registry.builder?_domain,
    Registry.reads_domainRule (by simpa using hd)]
  exact ⟨{}, [pattern.text], (Registry.reads_domainOptions_target hk).mpr ⟨rfl, rfl⟩,
    DomainOptions.reads_readTarget.mpr ⟨rfl, pattern.text, _, hp, .inl ⟨rfl, rfl⟩⟩⟩

private def upperDomain : DomainRule := domainRule ⟨"A.cn.", .exact "a.cn".toList, rfl⟩

private theorem read_upperDomain : Registry.standard.read "domain A.cn." = .ok (.domain upperDomain) :=
  read_domainRule (by decide) (by decide) (by decide) (by decide)

/-- A path that has to be quoted, and a domain in another form than that in which domains are compared. -/
theorem Reachable.withdraws_named_quoted :
    ∃ p url domain, Reachable .standard p ∧ p.urls = [url] ∧ url.rule.slots.get .content = some .cache ∧
      p.domains = [domain] ∧
      p.apply .standard .inOrder ("url delete " ++ quote "g.cn/a b") =
        .ok { p with urls := [], drops := p.drops.reset "g.cn/a b" } ∧
      (∃ slots, p.apply .standard .inOrder ("url remove " ++ "map" ++ " " ++ quote "g.cn/a b") =
          .ok { p with urls := [{ url with rule := { url.rule with slots } }] } ∧ slots.get .content = none) ∧
      p.apply .standard .inOrder ("domain delete " ++ quote domain.rule.target.text) =
        .ok { p with domains := [] } := by
  let url : UrlPolicy := ⟨cachedSpaced, []⟩
  let domain : DomainPolicy := .ofRule .inOrder upperDomain
  have hp : Reachable .standard { urls := [url], domains := [domain] } :=
    (Reachable.fresh.apply (q := { urls := [url] }) .inOrder (apply_eq_ok_iff.mpr ⟨_, read_cachedSpaced, rfl⟩)).apply
      .inOrder (apply_eq_ok_iff.mpr ⟨_, read_upperDomain, rfl⟩)
  obtain ⟨hurls, hdomains⟩ := hp.withdraws_named .inOrder
  obtain ⟨hdelete, hremove⟩ := hurls [] url [] "g.cn/a b" rfl rfl (by decide)
  obtain ⟨slots, hempty, hslot, -⟩ := hremove "map" .content rfl
  exact ⟨_, url, domain, hp, rfl, rfl, rfl, hdelete, ⟨slots, hempty, hslot⟩, hdomains [] domain [] rfl⟩

def hostRule (host : DomainPattern) : UrlRule :=
  { target := some ⟨host.text, some host, "", []⟩ }

theorem read_hostRule {host : DomainPattern} {command : String} (hw : words command = ["url", host.text])
    (hk : host.text ∉ UrlRule.keywords) (hr : host.text ≠ "remove") (hd : host.text ≠ "delete")
    (hp : UrlPattern.read host.text = .ok ⟨host.text, some host, "", []⟩) :
    Registry.standard.read command = .ok (.url (hostRule host)) := by
  rw [Registry.read_eq_ok_iff, hw, Registry.builds_url Registry.builder?_url,
    Registry.reads_urlRule (by simpa using hr) (by simpa using hd)]
  exact ⟨{}, [host.text], (Registry.reads_urlParts_target hk).mpr ⟨rfl, rfl⟩,
    UrlRule.reads_readTarget.mpr ⟨rfl, .inr ⟨host.text, _, rfl, hp, rfl⟩⟩⟩

/-- A url policy may be defined for the host `all`. The command that should delete it deletes all url policies. -/
theorem not_withdraws_all :
    ¬∀ (p : Profile), Reachable .standard p → ∀ before url after text, p.urls = before ++ url :: after →
      url.target? = some text →
        ∃ q, p.apply .standard .inOrder ("url delete " ++ quote text) = .ok q ∧ q.urls = before ++ after := by
  intro h
  let first : UrlPolicy := ⟨hostRule ⟨"all", .exact "all".toList, rfl⟩, []⟩
  let second : UrlPolicy := ⟨hostRule .host, []⟩
  have hall : Registry.standard.read "url all" = .ok (.url first.rule) :=
    read_hostRule (by decide +kernel) (by decide) (by decide) (by decide) (by decide +kernel)
  have hhost : Registry.standard.read "url g.cn" = .ok (.url second.rule) :=
    read_hostRule (by decide +kernel) (by decide) (by decide) (by decide) (by decide +kernel)
  have hp : Reachable .standard { urls := [first, second] } :=
    (Reachable.fresh.apply (q := { urls := [first] }) .inOrder (apply_eq_ok_iff.mpr ⟨_, hall, rfl⟩)).apply
      .inOrder (apply_eq_ok_iff.mpr ⟨_, hhost, rfl⟩)
  obtain ⟨q, happly, hq⟩ := h _ hp [] first [second] "all" rfl rfl
  obtain ⟨policy, hread, hpolicy⟩ := apply_eq_ok_iff.mp happly
  have hplain : Plain "all" := by decide
  have hdelete := Registry.read_deletion .url hplain
  obtain rfl := Except.ok.inj (hread.symm.trans hdelete)
  cases hpolicy
  cases hq

end Profile

end TrafficPolicy
