import TrafficPolicy.Policy.Shuffle
import TrafficPolicy.Proofs.Grammar.UrlRule
import TrafficPolicy.Proofs.Profile.SlotTable

/-!
# What a profile inherits

After any history of accepted commands the policies of a profile are linked to its current default, and so
every slot shows its own occupant or that of the current default.
-/

namespace TrafficPolicy

namespace Profile

variable {p : Profile}

theorem mem_urls_of_mem_candidates {url : Url} {candidate : Specificity × UrlPolicy}
    (h : candidate ∈ p.urlCandidates url) : candidate.2 ∈ p.urls := by
  obtain ⟨policy, hmem, hsome⟩ := List.mem_filterMap.mp h
  obtain ⟨target, -, hcovers⟩ := Option.bind_eq_some_iff.mp hsome
  split at hcovers
  · obtain rfl := Option.some.inj hcovers
    exact hmem
  · cases hcovers

/-- What counts for a url is a policy with a target or the default. -/
theorem mem_or_default_of_resolveUrl {url : String} {policy : UrlPolicy}
    (h : p.resolveUrl url = some policy) : policy ∈ p.urls ∨ p.defaultUrl = some policy := by
  unfold resolveUrl at h
  cases hbest : firstGreatest? (fun a b => a.1.exceeds b.1) (p.urlCandidates (Url.read url)) with
  | none =>
    rw [hbest] at h
    exact .inr h
  | some best =>
    rw [hbest] at h
    obtain rfl := Option.some.inj h
    exact .inl (mem_urls_of_mem_candidates (mem_of_firstGreatest? hbest))

theorem WellLinked.get_of_resolveUrl (h : p.WellLinked) {url : String} {policy : UrlPolicy}
    (hp : p.resolveUrl url = some policy) (s : Slot) :
    policy.get s =
      (policy.rule.slots.get s <|> p.defaultUrl.bind fun default => default.rule.slots.get s) := by
  rcases mem_or_default_of_resolveUrl hp with hmem | hd
  · rw [h.get_of_mem hmem]
    cases hd : p.defaultUrl <;> simp [slotTable, hd]
  · rw [h.get_of_default hd, hd, Option.bind_some]
    cases policy.rule.slots.get s <;> rfl

/-- A history keeps the policies linked to the default that counts in the end. So every slot of what counts
for a url shows its own occupant or that of this default, as in a table without links to which the same
commands were applied. -/
theorem follow_fresh_linked {registry : Registry} {history : History}
    (h : ({} : Profile).follow registry history = .ok p) :
    p.WellLinked ∧
      (∀ url policy, p.resolveUrl url = some policy → ∀ s, policy.get s =
        (policy.rule.slots.get s <|> p.defaultUrl.bind fun default => default.rule.slots.get s)) ∧
      ∃ table, SlotTable.follow {} registry (history.map Prod.snd) = .ok table ∧
        ∀ url, Option.Rel UrlPolicy.Shows (p.resolveUrl url) (table.resolveUrl url) := by
  have hlinked := wellLinked_follow wellLinked_fresh h
  have htable : SlotTable.follow {} registry (history.map Prod.snd) = .ok p.slotTable :=
    slotTable_follow h
  exact ⟨hlinked, fun _ _ => hlinked.get_of_resolveUrl, p.slotTable, htable, hlinked.resolveUrl_rel⟩

private def keepRedirects : UrlRule :=
  { slots := { dont302 := some ⟨true, "dont302", "do not follow 302 redirects"⟩ } }

private def fromCache : UrlRule :=
  { slots := { content := some .cache }, target := some ⟨"/a", none, "/a", []⟩ }

private theorem read_keepRedirects : Registry.standard.read "url dont302" = .ok (.url keepRedirects) := by
  have hw : Text.words "url dont302" = ["url", "dont302"] := by decide
  have hb : Registry.standard.builder? "dont302" =
      some (.leaf (.flag .dont302 ⟨true, "dont302", "do not follow 302 redirects"⟩)) := by
    decide
  exact UrlRule.read_part hw (by decide) ((Registry.builds_leaf hb).mpr ⟨rfl, rfl⟩) rfl

private theorem read_fromCache : Registry.standard.read "url cache /a" = .ok (.url fromCache) := by
  have hw : Text.words "url cache /a" = ["url", "cache", "/a"] := by decide
  have hb : Registry.standard.builder? "cache" = some (.leaf (.marker .cache)) :=
    Registry.builder?_standard_iff.mpr (.marker .cache)
  exact UrlRule.read_part_target hw (by decide) ((Registry.builds_leaf hb).mpr ⟨rfl, rfl⟩) rfl (by decide) (by decide)

/-- The path is defined before the default, and shows its occupant all the same. -/
theorem follow_fresh_linked_later_default :
    ∃ p, ({} : Profile).follow .standard
        [(.ofSeed 0, "url cache /a"), (.ofSeed 0, "url dont302")] = .ok p ∧
      p.WellLinked ∧
      (p.resolveUrl "g.cn/a").map (fun policy => policy.get (.setting .dont302)) =
        some keepRedirects.slots.dont302 := by
  let p : Profile := { defaultUrl := some ⟨keepRedirects, []⟩, urls := [⟨fromCache, [keepRedirects]⟩] }
  have happly : ({} : Profile).follow .standard
      [(.ofSeed 0, "url cache /a"), (.ofSeed 0, "url dont302")] = .ok p := by
    rw [follow_cons_eq_ok_iff]
    refine ⟨{ urls := [⟨fromCache, []⟩] }, apply_eq_ok_iff.mpr ⟨_, read_fromCache, rfl⟩, ?_⟩
    rw [follow_cons_eq_ok_iff]
    exact ⟨p, apply_eq_ok_iff.mpr ⟨_, read_keepRedirects, rfl⟩, rfl⟩
  obtain ⟨hlinked, hget, -⟩ := follow_fresh_linked happly
  have hp : p.resolveUrl "g.cn/a" = some ⟨fromCache, [keepRedirects]⟩ := by decide +kernel
  refine ⟨p, happly, hlinked, ?_⟩
  rw [hp, Option.map_some, hget _ _ hp]
  rfl

end Profile

end TrafficPolicy
