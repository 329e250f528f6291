import TrafficPolicy.Proofs.Profile.Candidates
import TrafficPolicy.Proofs.Profile.WellLinked

/-!
# The rules of a profile

What a profile writes and which policy counts depends on its rules only: not on the links to the default, on
what has been dropped, nor on the order of addresses. A ledger is a profile of which only the rules are left.
Every command does to the ledger of a profile what it does to the profile.
-/

namespace TrafficPolicy

def UrlRule.stored (rule : UrlRule) : UrlRule := { rule with mode := none }

theorem UrlRule.stored_update_empty {rule : UrlRule} (ht : rule.target = none) :
    (UrlRule.update {} rule).stored = rule.stored := by
  unfold UrlRule.update UrlRule.stored
  split
  · simp [ht]
  · simp only [ht, UrlRule.mk.injEq, true_and, and_true]
    exact Slots.ext_get fun s => by simp

def UrlRule.target? (rule : UrlRule) : Option String := rule.target.map UrlPattern.text

def DomainRule.key (rule : DomainRule) : List Char := normalDomain rule.target.text.toList

theorem DomainRule.key_of_pattern {rule : DomainRule} {pattern : DomainPattern} (h : rule.target = .pattern pattern) :
    rule.key = pattern.name := by
  unfold key
  rw [h]
  rfl

structure Ledger where
  defaultUrl : Option UrlRule := none
  urls : List UrlRule := []
  defaultDomain : Option DomainRule := none
  domains : List DomainRule := []

namespace Ledger

def mapUrl (l : Ledger) (key : String) (f : UrlRule → UrlRule) : Ledger :=
  { l with urls := l.urls.map fun rule => if rule.target? = some key then f rule else rule }

def applyUrl (l : Ledger) (rule : UrlRule) : Ledger :=
  match rule.target with
  | none => { l with defaultUrl := some ((l.defaultUrl.getD {}).update rule).stored }
  | some target =>
    if l.urls.any fun old => old.target? == some target.text then
      l.mapUrl target.text fun old => (old.update rule).stored
    else { l with urls := l.urls ++ [rule.stored] }

def applyRemoval (l : Ledger) (removal : Removal) : Ledger :=
  match removal.target with
  | .all =>
    { l with
      defaultUrl := l.defaultUrl.map fun rule => rule.remove removal.slot
      urls := l.urls.map fun rule => rule.remove removal.slot }
  | .named name => (urlKey? name).elim l fun key => l.mapUrl key fun rule => rule.remove removal.slot

def applyDeletion (l : Ledger) (deletion : Deletion) : Ledger :=
  match deletion.scope, deletion.target with
  | .url, .all => { l with defaultUrl := none, urls := [] }
  | .url, .named name =>
    (urlKey? name).elim l fun key => { l with urls := l.urls.filter fun rule => rule.target? != some key }
  | .domain, .all => { l with defaultDomain := none, domains := [] }
  | .domain, .named name =>
    { l with domains := l.domains.filter fun rule => rule.key != normalDomain name.toList }

def applyDomain (l : Ledger) (rule : DomainRule) : Ledger :=
  match rule.target with
  | .all => { l with defaultDomain := some rule }
  | .pattern pattern =>
    if l.domains.any fun old => old.key == pattern.name then
      { l with domains := l.domains.map fun old => if old.key = pattern.name then rule else old }
    else { l with domains := l.domains ++ [rule] }

def applyPolicy (l : Ledger) : Policy → Except CommandError Ledger
  | .url rule => .ok (l.applyUrl rule)
  | .remove removal => .ok (l.applyRemoval removal)
  | .delete deletion => .ok (l.applyDeletion deletion)
  | .domain rule => .ok (l.applyDomain rule)
  | other => .error (.notApplicable other.command)

/-- Applies policies one after the other. A policy that is refused ends it. -/
def run (l : Ledger) (policies : List Policy) : Except CommandError Ledger :=
  policies.foldlM applyPolicy l

def urlRules (l : Ledger) : List UrlRule := l.defaultUrl.toList ++ l.urls

def domainRules (l : Ledger) : List DomainRule := l.defaultDomain.toList ++ l.domains

def commands (l : Ledger) : List String :=
  l.urlRules.map UrlRule.command ++ l.domainRules.map DomainRule.command

def urlCommand? (l : Ledger) (url : String) : Option String :=
  ((firstGreatest? (fun a b => a.1.exceeds b.1) (l.urls.filterMap fun rule => rule.target.bind fun target =>
      if target.covers url then some (target.specificity, rule.command) else none)).map Prod.snd) <|>
    l.defaultUrl.map UrlRule.command

def domainCommand? (l : Ledger) (domain : String) : Option String :=
  ((firstGreatest? (fun a b => a.1.exceeds b.1) (l.domains.filterMap fun rule =>
      rule.target.pattern?.bind fun pattern =>
        if pattern.covers domain then some (pattern.rank, rule.command) else none)).map Prod.snd) <|>
    l.defaultDomain.map DomainRule.command

end Ledger

namespace Profile

variable {p q : Profile}

def ledger (p : Profile) : Ledger where
  defaultUrl := p.defaultUrl.map UrlPolicy.rule
  urls := p.urls.map UrlPolicy.rule
  defaultDomain := p.defaultDomain.map DomainPolicy.rule
  domains := p.domains.map DomainPolicy.rule

theorem urlRules_ledger (p : Profile) : p.ledger.urlRules = p.urlPolicies.map UrlPolicy.rule := by
  simp only [Ledger.urlRules, ledger, urlPolicies, Option.toList_map, List.map_append]

theorem domainRules_ledger (p : Profile) : p.ledger.domainRules = p.domainPolicies.map DomainPolicy.rule := by
  simp only [Ledger.domainRules, ledger, domainPolicies, Option.toList_map, List.map_append]

theorem commands_ledger (p : Profile) : p.ledger.commands = p.commands := by
  simp only [Ledger.commands, urlRules_ledger, domainRules_ledger, List.map_map]
  rfl

@[simp] theorem rule_update (domain : DomainPolicy) (shuffler : Shuffler) (rule : DomainRule) :
    (domain.update shuffler rule).rule = rule := by
  unfold DomainPolicy.update
  split <;> rfl

private theorem ledger_mapUrl (p : Profile) (key : String) {f : UrlPolicy → UrlPolicy} {g : UrlRule → UrlRule}
    (h : ∀ url, (f url).rule = g url.rule) : (p.mapUrl key f).ledger = p.ledger.mapUrl key g := by
  simp only [mapUrl, Ledger.mapUrl, ledger, List.map_map, Ledger.mk.injEq, true_and, and_true]
  refine List.map_congr_left fun url _ => ?_
  simp only [Function.comp_apply, apply_ite UrlPolicy.rule, h]
  rfl

theorem ledger_applyUrl (p : Profile) (rule : UrlRule) : (p.applyUrl rule).ledger = p.ledger.applyUrl rule := by
  unfold applyUrl Ledger.applyUrl
  cases ht : rule.target with
  | none =>
    have hdefault : (p.defaultUrl.getD ⟨{}, []⟩).rule = (p.ledger.defaultUrl.getD {}) := by
      unfold ledger
      cases p.defaultUrl <;> rfl
    simp only [applyDefault, relink, ledger, Option.map_some, List.map_map, Function.comp_def,
      UrlPolicy.rule_link, UrlPolicy.merge, UrlPolicy.mapRule, hdefault]
    rfl
  | some target =>
    have hhas : (p.ledger.urls.any fun old => old.target? == some target.text) = p.hasUrl target.text := by
      simp only [ledger, List.any_map, hasUrl]
      rfl
    simp only [applyTargeted, hhas]
    split
    · exact ledger_mapUrl p target.text fun url => rfl
    · simp only [ledger, List.map_append, List.map_cons, List.map_nil, UrlPolicy.rule_link]
      rfl

theorem ledger_applyRemoval (p : Profile) (removal : Removal) :
    (p.applyRemoval removal).ledger = p.ledger.applyRemoval removal := by
  unfold applyRemoval Ledger.applyRemoval
  cases removal.target with
  | all =>
    simp only [relink, ledger, List.map_map, Option.map_map, Function.comp_def, UrlPolicy.rule_link,
      UrlPolicy.mapRule]
  | named name =>
    dsimp only
    cases urlKey? name with
    | none => rfl
    | some key => exact ledger_mapUrl p key fun url => rfl

theorem ledger_applyDeletion (p : Profile) (deletion : Deletion) :
    (p.applyDeletion deletion).ledger = p.ledger.applyDeletion deletion := by
  unfold applyDeletion Ledger.applyDeletion
  obtain ⟨scope, target⟩ := deletion
  cases scope with
  | url =>
    cases target with
    | all => rfl
    | named name =>
      dsimp only
      cases urlKey? name with
      | none => rfl
      | some key =>
        simp only [ledger, Option.elim_some, List.filter_map]
        rfl
  | domain =>
    cases target with
    | all => rfl
    | named name =>
      simp only [ledger, List.filter_map]
      rfl

theorem ledger_applyDomain (p : Profile) (shuffler : Shuffler) (rule : DomainRule) :
    (p.applyDomain shuffler rule).ledger = p.ledger.applyDomain rule := by
  unfold applyDomain Ledger.applyDomain
  cases ht : rule.target with
  | all =>
    have hissue : (issue shuffler p.defaultDomain rule).rule = rule := by
      unfold issue
      cases p.defaultDomain with
      | none => rfl
      | some earlier => exact rule_update earlier shuffler rule
    simp only [ledger, Option.map_some, hissue]
  | pattern pattern =>
    have hhas : (p.ledger.domains.any fun old => old.key == pattern.name) =
        p.domains.any fun domain => domain.key == pattern.name := by
      simp only [ledger, List.any_map]
      rfl
    simp only [hhas]
    split
    · simp only [ledger, List.map_map, Ledger.mk.injEq, true_and]
      refine List.map_congr_left fun domain _ => ?_
      simp only [Function.comp_apply, apply_ite DomainPolicy.rule, rule_update]
      rfl
    · simp only [ledger, List.map_append]
      rfl

/-- A policy does to the ledger of a profile what it does to the profile. -/
theorem ledger_applyPolicy (p : Profile) (shuffler : Shuffler) (policy : Policy) :
    (p.applyPolicy shuffler policy).map ledger = p.ledger.applyPolicy policy := by
  cases policy with
  | url rule => exact congrArg Except.ok (ledger_applyUrl p rule)
  | remove removal => exact congrArg Except.ok (ledger_applyRemoval p removal)
  | delete deletion => exact congrArg Except.ok (ledger_applyDeletion p deletion)
  | domain rule => exact congrArg Except.ok (ledger_applyDomain p shuffler rule)
  | _ => rfl

/-- What a history makes of a profile, its commands make of the ledger, whatever their addresses are shuffled
by. -/
theorem exists_follow_iff {registry : Registry} {history : History} {m : Ledger} :
    (∃ q, p.follow registry history = .ok q ∧ q.ledger = m) ↔
      ∃ policies, List.Forall₂ (fun command policy => registry.read command = .ok policy)
        (history.map Prod.snd) policies ∧ p.ledger.run policies = .ok m := by
  induction history generalizing p with
  | nil =>
    constructor
    · rintro ⟨_, h, rfl⟩
      cases h
      exact ⟨[], .nil, rfl⟩
    · rintro ⟨_, ⟨⟩, h⟩
      cases h
      exact ⟨p, rfl, rfl⟩
  | cons entry history ih =>
    obtain ⟨shuffler, command⟩ := entry
    constructor
    · rintro ⟨q, h, hq⟩
      obtain ⟨next, hfirst, hrest⟩ := follow_cons_eq_ok_iff.mp h
      obtain ⟨policy, hread, happly⟩ := apply_eq_ok_iff.mp hfirst
      obtain ⟨policies, hreads, hrun⟩ := ih.mp ⟨q, hrest, hq⟩
      have hledger := ledger_applyPolicy p shuffler policy
      rw [happly] at hledger
      refine ⟨policy :: policies, .cons hread hreads, ?_⟩
      rw [Ledger.run, List.foldlM_cons, ← hledger]
      exact hrun
    · rintro ⟨_, hall, hrun⟩
      obtain ⟨policy, policies, hread, hreads, rfl⟩ := List.forall₂_cons_left_iff.mp hall
      have hledger := ledger_applyPolicy p shuffler policy
      rw [Ledger.run, List.foldlM_cons, ← hledger] at hrun
      cases happly : p.applyPolicy shuffler policy with
      | error e =>
        rw [happly] at hrun
        cases hrun
      | ok next =>
        rw [happly] at hrun
        obtain ⟨q, hq, hm⟩ := ih.mpr ⟨policies, hreads, hrun⟩
        exact ⟨q, follow_cons_eq_ok_iff.mpr ⟨next, apply_eq_ok_iff.mpr ⟨policy, hread, happly⟩, hq⟩, hm⟩

/-! ## Which rule counts -/

private theorem map_of_rel {α γ : Type} {R : γ × α → γ × String → Prop} {f : α → Option String}
    (h : ∀ a b, R a b → f a.2 = some b.2) {best : Option (γ × α)} {best' : Option (γ × String)}
    (hbest : Option.Rel R best best') : (best.map Prod.snd).bind f = best'.map Prod.snd := by
  cases hbest with
  | none => rfl
  | some hab => exact h _ _ hab

theorem urlCommand?_ledger (p : Profile) (url : String) :
    (p.resolveUrl url).map (fun policy => policy.rule.command) = p.ledger.urlCommand? url := by
  have hrel : List.Forall₂
      (fun (a : Specificity × UrlPolicy) (b : Specificity × String) => a.1 = b.1 ∧ some a.2.rule.command = some b.2)
      (p.urlCandidates (Url.read url))
      (p.ledger.urls.filterMap fun rule => rule.target.bind fun target =>
        if target.covers url then some (target.specificity, rule.command) else none) := by
    simp only [urlCandidates, ledger, List.filterMap_map]
    induction p.urls with
    | nil => exact .nil
    | cons policy policies ih =>
      simp only [List.filterMap_cons, Function.comp_apply]
      cases ht : policy.rule.target with
      | none => exact ih
      | some target =>
        by_cases hcovers : target.coversUrl (Url.read url)
        · simp only [Option.bind_some, UrlPattern.covers, hcovers, if_true]
          exact .cons ⟨rfl, rfl⟩ ih
        · simp only [Option.bind_some, UrlPattern.covers, hcovers]
          exact ih
  have hbest := firstGreatest?_rel (f := fun a b => a.1.exceeds b.1) (g := fun a b => a.1.exceeds b.1)
    (by rintro a a' b b' ⟨h, -⟩ ⟨h', -⟩; rw [h, h']) hrel
  unfold resolveUrl Ledger.urlCommand?
  simp only [Option.orElse_eq_orElse, Option.orElse_eq_or, Option.map_or]
  rw [Option.map_eq_bind, map_of_rel (fun a b h => h.2) hbest]
  simp only [ledger, Option.map_map]
  rfl

theorem domainCommand?_ledger (p : Profile) (domain : String) :
    (p.resolveDomain domain).map (fun policy => policy.rule.command) = p.ledger.domainCommand? domain := by
  have hcandidates : (p.ledger.domains.filterMap fun rule => rule.target.pattern?.bind fun pattern =>
        if pattern.covers domain then some (pattern.rank, rule.command) else none) =
      (p.coveringDomains domain).map fun candidate => (candidate.1, candidate.2.rule.command) := by
    simp only [coveringDomains, ledger, List.filterMap_map, List.map_filterMap, Function.comp_def, Option.map_bind,
      apply_ite (Option.map _), Option.map_some, Option.map_none]
  have hrel : List.Forall₂
      (fun (a : DomainRank × DomainPolicy) (b : DomainRank × String) => a.1 = b.1 ∧ some a.2.rule.command = some b.2)
      (p.coveringDomains domain)
      ((p.coveringDomains domain).map fun candidate => (candidate.1, candidate.2.rule.command)) := by
    rw [List.forall₂_map_right_iff, List.forall₂_same]
    exact fun _ _ => ⟨rfl, rfl⟩
  have hbest := firstGreatest?_rel (f := fun a b => a.1.exceeds b.1) (g := fun a b => a.1.exceeds b.1)
    (by rintro a a' b b' ⟨h, -⟩ ⟨h', -⟩; rw [h, h']) hrel
  rw [resolveDomain_eq, Ledger.domainCommand?, hcandidates]
  simp only [Option.orElse_eq_orElse, Option.orElse_eq_or, Option.map_or]
  rw [Option.map_eq_bind, map_of_rel (fun a b h => h.2) hbest]
  simp only [ledger, Option.map_map]
  rfl

end Profile

end TrafficPolicy
