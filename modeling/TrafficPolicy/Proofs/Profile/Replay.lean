import TrafficPolicy.Proofs.Profile.Rebuilding

/-!
# Applying the commands of a profile again

The commands of a profile give the profile again exactly if its policies can be read as they are written, the
first url policy apart where this makes no difference.
-/

namespace TrafficPolicy

namespace Profile

variable {p : Profile}

/-- The commands of a profile are all accepted by a fresh one when they are applied in order, whatever addresses
are shuffled by, and give a profile that writes the same commands and where policies with the same commands count
for every url and every domain. -/
def Replays (p : Profile) : Prop :=
  ∀ history : History, history.map Prod.snd = p.commands →
    ∃ q, ({} : Profile).follow .standard history = .ok q ∧ q.commands = p.commands ∧
      (∀ url, (q.resolveUrl url).map (fun policy => policy.rule.command) =
        (p.resolveUrl url).map fun policy => policy.rule.command) ∧
      ∀ domain, (q.resolveDomain domain).map (fun policy => policy.rule.command) =
        (p.resolveDomain domain).map fun policy => policy.rule.command

/-- Every policy is read from its command as it was written. -/
structure Legible (p : Profile) : Prop where
  urls : ∀ policy ∈ p.urlPolicies, policy.rule.Legible
  domains : ∀ policy ∈ p.domainPolicies, policy.rule.Legible

/-- There is no default, and the first url policy is read from its command as a default that is written in the
same way, but it makes no difference for any url which of the two it is. All others are read as they were
written. -/
structure ShadowedBy (p : Profile) (first : UrlPolicy) (rest : List UrlPolicy) (again : UrlRule) : Prop where
  no_default : p.defaultUrl = none
  urls_eq : p.urls = first :: rest
  read : Registry.standard.read first.rule.command = .ok (.url again)
  untargeted : again.target = none
  command : again.stored.command = first.rule.command
  urls : ∀ policy ∈ rest, policy.rule.Legible
  domains : ∀ policy ∈ p.domainPolicies, policy.rule.Legible
  resolves : ∀ url, (resolveUrl { p with defaultUrl := some ⟨again.stored, []⟩, urls := rest } url).map
      (fun policy => policy.rule.command) = (p.resolveUrl url).map fun policy => policy.rule.command

theorem tidy_ledger {history : History} (h : ({} : Profile).follow .standard history = .ok p) : p.ledger.Tidy := by
  have hlinked := wellLinked_follow wellLinked_fresh h
  refine ⟨sound_ledger h, ?_, ?_, ?_, ?_⟩
  · rw [urlRules_ledger, List.forall_mem_map]
    exact hlinked.unmoded
  · intro rule hrule
    obtain ⟨default, hdefault, rfl⟩ := Option.map_eq_some_iff.mp hrule
    exact hlinked.default_target default hdefault
  · exact List.forall_mem_map.mpr hlinked.targeted
  · have htargets : p.ledger.urls.map UrlRule.target? = p.urls.map UrlPolicy.target? := List.map_map
    rw [htargets]
    exact hlinked.distinct

theorem same_ledger_iff {q : Profile} : Ledger.Same p.ledger q.ledger ↔ q.commands = p.commands ∧
    (∀ url, (q.resolveUrl url).map (fun policy => policy.rule.command) =
      (p.resolveUrl url).map fun policy => policy.rule.command) ∧
    ∀ domain, (q.resolveDomain domain).map (fun policy => policy.rule.command) =
      (p.resolveDomain domain).map fun policy => policy.rule.command := by
  simp only [← commands_ledger, urlCommand?_ledger, domainCommand?_ledger]
  exact ⟨fun h => ⟨h.commands, h.urls, h.domains⟩, fun ⟨hcommands, hurls, hdomains⟩ => ⟨hcommands, hurls, hdomains⟩⟩

private theorem replays_iff_rebuilds :
    p.Replays ↔ ∃ m, Ledger.Rebuilds p.ledger m ∧ Ledger.Same p.ledger m := by
  unfold Replays Ledger.Rebuilds
  rw [commands_ledger]
  simp only [← same_ledger_iff]
  constructor
  · intro h
    obtain ⟨q, hq, hsame⟩ := h (p.commands.map fun command => (.inOrder, command)) (by simp [Function.comp_def])
    obtain ⟨policies, hread, hrun⟩ := exists_follow_iff.mp ⟨q, hq, rfl⟩
    exact ⟨q.ledger, ⟨policies, by simpa [Function.comp_def] using hread, hrun⟩, hsame⟩
  · rintro ⟨m, ⟨policies, hread, hrun⟩, hsame⟩ history hcommands
    obtain ⟨q, hq, rfl⟩ := exists_follow_iff (p := {}) |>.mpr ⟨policies, hcommands ▸ hread, hrun⟩
    exact ⟨q, hq, hsame⟩

private theorem legible_ledger : p.ledger.Legible ↔ p.Legible := by
  constructor
  · rintro ⟨hurls, hdomains⟩
    rw [urlRules_ledger, List.forall_mem_map] at hurls
    rw [domainRules_ledger, List.forall_mem_map] at hdomains
    exact ⟨hurls, hdomains⟩
  · rintro ⟨hurls, hdomains⟩
    refine ⟨?_, ?_⟩
    · rw [urlRules_ledger, List.forall_mem_map]
      exact hurls
    · rw [domainRules_ledger, List.forall_mem_map]
      exact hdomains

private theorem shadowed_ledger {first : UrlPolicy} {rest : List UrlPolicy} {again : UrlRule}
    (hurls : p.urls = first :: rest) :
    p.ledger.Shadowed first.rule (rest.map UrlPolicy.rule) again ↔ p.ShadowedBy first rest again := by
  have hdomains : (∀ rule ∈ p.ledger.domainRules, rule.Legible) ↔
      ∀ policy ∈ p.domainPolicies, policy.rule.Legible := by
    rw [domainRules_ledger, List.forall_mem_map]
  have hresolves : (∀ url, Ledger.urlCommand?
      { p.ledger with defaultUrl := some again.stored, urls := rest.map UrlPolicy.rule } url = p.ledger.urlCommand? url) ↔
      ∀ url, (resolveUrl { p with defaultUrl := some ⟨again.stored, []⟩, urls := rest } url).map
        (fun policy => policy.rule.command) = (p.resolveUrl url).map fun policy => policy.rule.command := by
    simp only [urlCommand?_ledger]
    rfl
  have hrest : (∀ rule ∈ rest.map UrlPolicy.rule, rule.Legible) ↔ ∀ policy ∈ rest, policy.rule.Legible :=
    List.forall_mem_map
  constructor
  · intro h
    exact ⟨Option.map_eq_none_iff.mp h.no_default, hurls, h.read, h.untargeted, h.command, hrest.mp h.urls,
      hdomains.mp h.domains, hresolves.mp h.resolves⟩
  · intro h
    exact ⟨Option.map_eq_none_iff.mpr h.no_default, congrArg (List.map UrlPolicy.rule) hurls, h.read, h.untargeted,
      h.command, hrest.mpr h.urls, hdomains.mpr h.domains, hresolves.mpr h.resolves⟩

/-- The commands of a profile give the profile again exactly if every policy is read from its command as it was
written, or if the first one is not and this makes no difference. -/
theorem replays_iff {history : History} (h : ({} : Profile).follow .standard history = .ok p) :
    p.Replays ↔ p.Legible ∨ ∃ first rest again, p.ShadowedBy first rest again := by
  have htidy := tidy_ledger h
  rw [replays_iff_rebuilds]
  constructor
  · rintro ⟨m, hm, hsame⟩
    rcases htidy.legible_or_shadowed hm hsame with hl | ⟨rule, rules, again, hs⟩
    · exact .inl (legible_ledger.mp hl)
    · obtain ⟨first, rest, hurls, rfl, rfl⟩ := List.map_eq_cons_iff.mp hs.urls_eq
      exact .inr ⟨first, rest, again, (shadowed_ledger hurls).mp hs⟩
  · rintro (hl | ⟨first, rest, again, hs⟩)
    · exact htidy.same_of_legible (legible_ledger.mpr hl)
    · exact htidy.same_of_shadowed ((shadowed_ledger hs.urls_eq).mpr hs)

private def unchunked : UrlRule :=
  { slots := { chunked := some .off }, target := some ⟨"/a", none, "/a", []⟩ }

private theorem read_unchunked : Registry.standard.read "url chunked off /a" = .ok (.url unchunked) := by
  have hw : Text.words "url chunked off /a" = ["url", "chunked", "off", "/a"] := by decide
  have hb : Registry.standard.builder? "chunked" = some (.leaf .chunked) :=
    Registry.builder?_standard_iff.mpr .chunked
  have hchunked : Registry.standard.Builds ["chunked", "off", "/a"] (.chunked .off) ["/a"] := by
    rw [Registry.builds_leaf hb]
    exact Leaf.reads_chunked.mpr ⟨.off, Leaf.reads_framing.mpr (.inr (.inr (.inl ⟨rfl, rfl⟩))), rfl⟩
  exact UrlRule.read_part_target hw (by decide) hchunked rfl (by decide) (by decide)

/-- One path that is not chunked is written so that it is read again. -/
theorem replays_iff_unchunked :
    ∃ p, ({} : Profile).follow .standard [(.inOrder, "url chunked off /a")] = .ok p ∧
      p.commands = ["url chunked off /a"] ∧ p.Replays := by
  let p : Profile := { urls := [⟨unchunked, []⟩] }
  have happly : ({} : Profile).follow .standard [(.inOrder, "url chunked off /a")] = .ok p := by
    rw [follow_cons_eq_ok_iff]
    exact ⟨p, apply_eq_ok_iff.mpr ⟨_, read_unchunked, rfl⟩, rfl⟩
  have hlegible : unchunked.Legible := by
    refine ⟨⟨?_, ?_, ?_⟩, ?_, ?_⟩
    · exact fun _ h => nomatch h
    · exact fun _ h => nomatch h
    · exact fun _ h => nomatch h
    · exact fun h => nomatch h
    · exact fun h => nomatch h
  refine ⟨p, happly, by decide +kernel, (replays_iff happly).mpr (.inl ⟨?_, ?_⟩)⟩
  · intro policy hpolicy
    obtain rfl : policy = ⟨unchunked, []⟩ := by simpa [p, urlPolicies] using hpolicy
    exact hlegible
  · intro policy hpolicy
    simp [p, domainPolicies] at hpolicy

private def removeDomain : UrlRule :=
  { mode := some .set, target := some ⟨"remove", some ⟨"remove", .exact "remove".toList, rfl⟩, "", []⟩ }

private theorem read_removeDomain : Registry.standard.read "url set remove" = .ok (.url removeDomain) := by
  have hw : Text.words "url set remove" = ["url", "set", "remove"] := by decide
  have hb : Registry.standard.builder? "set" = some (.leaf (.marker .set)) :=
    Registry.builder?_standard_iff.mpr (.marker .set)
  exact UrlRule.read_part_target hw (by decide) ((Registry.builds_leaf hb).mpr ⟨rfl, rfl⟩) rfl (by decide)
    (by decide)

private theorem not_read_remove {policy : Policy} : Registry.standard.read "url remove" ≠ .ok policy := by
  have hw : Text.words "url remove" = ["url", "remove"] := by decide
  rw [Ne, Registry.read_eq_ok_iff, hw, Registry.builds_url Registry.builder?_url, Registry.reads_urlRemoval,
    reads_removal]
  rintro ⟨removal, text, heq, -⟩
  cases heq

/-- A mode is not written. Without it the domain that it kept apart from `url` is taken for a subcommand. -/
theorem not_replays_removeDomain :
    ¬∀ (history : History) (p : Profile), ({} : Profile).follow .standard history = .ok p → p.Replays := by
  intro h
  let p : Profile := { urls := [⟨removeDomain.stored, []⟩] }
  have happly : ({} : Profile).follow .standard [(.inOrder, "url set remove")] = .ok p := by
    rw [follow_cons_eq_ok_iff]
    exact ⟨p, apply_eq_ok_iff.mpr ⟨_, read_removeDomain, rfl⟩, rfl⟩
  have hcommands : p.commands = ["url remove"] := by decide +kernel
  obtain ⟨q, hq, -⟩ := h _ p happly [(.inOrder, "url remove")] hcommands.symm
  obtain ⟨next, hnext, -⟩ := follow_cons_eq_ok_iff.mp hq
  obtain ⟨policy, hread, -⟩ := apply_eq_ok_iff.mp hnext
  exact not_read_remove hread

end Profile

end TrafficPolicy
