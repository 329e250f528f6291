import TrafficPolicy.Proofs.Profile.Growth

/-!
# Ledgers that read alike

Two ledgers whose rules have the same targets and the same commands write the same commands, and the same command
counts for every url and every domain.
-/

namespace TrafficPolicy

/-- What of a url rule decides for which urls it counts and what is written. -/
def UrlRule.face (rule : UrlRule) : Option UrlPattern × String := (rule.target, rule.command)

def DomainRule.face (rule : DomainRule) : DomainTarget × String := (rule.target, rule.command)

namespace Ledger

variable {l m : Ledger}

/-- The rules have the same targets and the same commands. -/
structure Alike (l m : Ledger) : Prop where
  defaultUrl : l.defaultUrl.map UrlRule.command = m.defaultUrl.map UrlRule.command
  urls : l.urls.map UrlRule.face = m.urls.map UrlRule.face
  defaultDomain : l.defaultDomain.map DomainRule.command = m.defaultDomain.map DomainRule.command
  domains : l.domains.map DomainRule.face = m.domains.map DomainRule.face

theorem Alike.commands_eq (h : Alike l m) : l.commands = m.commands := by
  have hurls : l.urls.map UrlRule.command = m.urls.map UrlRule.command := by
    have := congrArg (List.map Prod.snd) h.urls
    rwa [List.map_map, List.map_map] at this
  have hdomains : l.domains.map DomainRule.command = m.domains.map DomainRule.command := by
    have := congrArg (List.map Prod.snd) h.domains
    rwa [List.map_map, List.map_map] at this
  simp only [commands, urlRules, domainRules, List.map_append, ← Option.toList_map, h.defaultUrl, hurls,
    h.defaultDomain, hdomains]

theorem Alike.urlCommand?_eq (h : Alike l m) (url : String) : l.urlCommand? url = m.urlCommand? url := by
  have hfaces : ∀ l : Ledger, (l.urls.filterMap fun rule => rule.target.bind fun target =>
      if target.covers url then some (target.specificity, rule.command) else none) =
      (l.urls.map UrlRule.face).filterMap fun face => face.1.bind fun target =>
        if target.covers url then some (target.specificity, face.2) else none := by
    intro l
    rw [List.filterMap_map]
    rfl
  simp only [urlCommand?, hfaces, h.urls, h.defaultUrl]

theorem Alike.domainCommand?_eq (h : Alike l m) (domain : String) :
    l.domainCommand? domain = m.domainCommand? domain := by
  have hfaces : ∀ l : Ledger, (l.domains.filterMap fun rule => rule.target.pattern?.bind fun pattern =>
      if pattern.covers domain then some (pattern.rank, rule.command) else none) =
      (l.domains.map DomainRule.face).filterMap fun face => face.1.pattern?.bind fun pattern =>
        if pattern.covers domain then some (pattern.rank, face.2) else none := by
    intro l
    rw [List.filterMap_map]
    rfl
  simp only [domainCommand?, hfaces, h.domains, h.defaultDomain]

/-! ## Rules that are added one after the other -/

theorem run_append {policies more : List Policy} {n : Ledger} (h : l.run policies = .ok m) :
    l.run (policies ++ more) = .ok n ↔ m.run more = .ok n := by
  unfold run at h ⊢
  rw [List.foldlM_append, h]
  rfl

theorem run_default {rule? : Option UrlRule} (h : ∀ rule ∈ rule?, rule.target = none) (hl : l.defaultUrl = none) :
    l.run (rule?.toList.map Policy.url) = .ok { l with defaultUrl := rule?.map UrlRule.stored } := by
  cases rule? with
  | none =>
    obtain ⟨_, urls, defaultDomain, domains⟩ := l
    subst hl
    rfl
  | some rule =>
    have ht := h rule rfl
    simp only [Option.toList_some, List.map_cons, List.map_nil, run, List.foldlM_cons, List.foldlM_nil, applyPolicy,
      applyUrl, ht, hl, Option.getD_none, UrlRule.stored_update_empty ht, Option.map_some]
    rfl

theorem run_urls {rules : List UrlRule} (h : ∀ rule ∈ rules, rule.target.isSome)
    (hdistinct : (l.urls.map UrlRule.target? ++ rules.map UrlRule.target?).Nodup) :
    l.run (rules.map Policy.url) = .ok { l with urls := l.urls ++ rules.map UrlRule.stored } := by
  induction rules generalizing l with
  | nil => simp [run, pure, Except.pure]
  | cons rule rules ih =>
    obtain ⟨target, ht⟩ := Option.isSome_iff_exists.mp (h rule List.mem_cons_self)
    have hfresh : (l.urls.any fun old => old.target? == some target.text) = false := by
      rw [List.any_eq_false]
      intro old hold heq
      have hne := (List.nodup_append.mp hdistinct).2.2 _ (List.mem_map_of_mem hold) rule.target? (by simp)
      exact hne (by simpa [UrlRule.target?, ht] using heq)
    have hstep : l.applyPolicy (.url rule) = .ok { l with urls := l.urls ++ [rule.stored] } := by
      simp only [applyPolicy, applyUrl, ht, hfresh]
      rfl
    rw [List.map_cons, run_cons_eq_ok_iff]
    refine ⟨_, hstep, ?_⟩
    rw [ih (fun r hr => h r (List.mem_cons_of_mem _ hr)) (by
      rw [List.map_append, List.append_assoc]
      exact hdistinct)]
    simp

theorem run_defaultDomain {rule? : Option DomainRule} (h : ∀ rule ∈ rule?, rule.target = .all)
    (hl : l.defaultDomain = none) :
    l.run (rule?.toList.map Policy.domain) = .ok { l with defaultDomain := rule? } := by
  cases rule? with
  | none =>
    obtain ⟨defaultUrl, urls, _, domains⟩ := l
    subst hl
    rfl
  | some rule =>
    simp only [Option.toList_some, List.map_cons, List.map_nil, run, List.foldlM_cons, List.foldlM_nil, applyPolicy,
      applyDomain, h rule rfl]
    rfl

theorem run_domains {rules : List DomainRule} (h : ∀ rule ∈ rules, rule.target ≠ .all)
    (hdistinct : (l.domains.map DomainRule.key ++ rules.map DomainRule.key).Nodup) :
    l.run (rules.map Policy.domain) = .ok { l with domains := l.domains ++ rules } := by
  induction rules generalizing l with
  | nil => simp [run, pure, Except.pure]
  | cons rule rules ih =>
    cases ht : rule.target with
    | all => exact absurd ht (h rule List.mem_cons_self)
    | pattern pattern =>
      have hkey := DomainRule.key_of_pattern ht
      have hfresh : (l.domains.any fun old => old.key == pattern.name) = false := by
        rw [List.any_eq_false]
        intro old hold heq
        have hne := (List.nodup_append.mp hdistinct).2.2 _ (List.mem_map_of_mem hold) rule.key (by simp)
        exact hne (by rw [hkey]; simpa using heq)
      have hstep : l.applyPolicy (.domain rule) = .ok { l with domains := l.domains ++ [rule] } := by
        simp only [applyPolicy, applyDomain, ht, hfresh]
        rfl
      rw [List.map_cons, run_cons_eq_ok_iff]
      refine ⟨_, hstep, ?_⟩
      rw [ih (fun r hr => h r (List.mem_cons_of_mem _ hr)) (by
        rw [List.map_append, List.append_assoc]
        exact hdistinct)]
      simp

end Ledger

end TrafficPolicy
