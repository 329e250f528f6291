import TrafficPolicy.Proofs.Profile.Rotation

/-!
# The order of definition

A target is defined by the first command for it since it was last deleted; later commands for it change its policy
where it is. The url policies of a profile stand in the order in which their targets were defined, whatever has
happened to the profile.
-/

namespace TrafficPolicy

/-- The number of the command that defines a target, after one more policy, which has a number itself. -/
def Policy.redefine (target : String) (number : Nat) (earlier? : Option Nat) : Policy → Option Nat
  | .url rule => if rule.target.map UrlPattern.text = some target then some (earlier?.getD number) else earlier?
  | .delete ⟨.url, .all⟩ => none
  | .delete ⟨.url, .named name⟩ => if urlKey? name = some target then none else earlier?
  | _ => earlier?

/-- The number of the command that defines a target, if it is defined after some policies. -/
def definedAt? (target : String) (policies : List Policy) : Option Nat :=
  policies.zipIdx.foldl (fun earlier? entry => entry.1.redefine target entry.2 earlier?) none

variable {target : String} {policies : List Policy} {policy : Policy} {i j : Nat}

theorem definedAt?_concat (target : String) (policies : List Policy) (policy : Policy) :
    definedAt? target (policies ++ [policy]) =
      policy.redefine target policies.length (definedAt? target policies) := by
  simp [definedAt?, List.zipIdx_append]

theorem Policy.redefine_le {number : Nat} {earlier? : Option Nat} (hearlier : ∀ i ∈ earlier?, i < number)
    (h : policy.redefine target number earlier? = some i) : i ≤ number := by
  have hkept : earlier? = some i → i ≤ number := fun hi => Nat.le_of_lt (hearlier i hi)
  unfold Policy.redefine at h
  split at h
  · split at h
    · cases earlier? with
      | none => exact Nat.le_of_eq (Option.some.inj h).symm
      | some => exact hkept h
    · exact hkept h
  · cases h
  · split at h
    · cases h
    · exact hkept h
  · exact hkept h

/-- What defines a target is one of the commands. -/
theorem definedAt?_lt (h : definedAt? target policies = some i) : i < policies.length := by
  induction policies using List.reverseRecOn generalizing i with
  | nil => cases h
  | append_singleton policies policy ih =>
    rw [definedAt?_concat] at h
    rw [List.length_append, List.length_singleton]
    exact Nat.lt_succ_of_le (Policy.redefine_le (fun _ => ih) h)

namespace Profile

variable {registry : Registry} {p q : Profile}

/-- The profiles that there can be, each with the policies of the commands that it has accepted. Handing out
addresses and dropping requests are no commands. -/
inductive Formed (registry : Registry) : List Policy → Profile → Prop
  | fresh : Formed registry [] {}
  | accept {policies : List Policy} {p q : Profile} {policy : Policy} (command : String) (shuffler : Shuffler) :
      Formed registry policies p → registry.read command = .ok policy → p.applyPolicy shuffler policy = .ok q →
        Formed registry (policies ++ [policy]) q
  | use {policies : List Policy} {p : Profile} (policy : DomainPolicy) (place : DomainPlace) :
      Formed registry policies p → Formed registry policies (p.putDomain policy place)
  | drop {policies : List Policy} {p : Profile} (policy : UrlPolicy) (now : Nat) :
      Formed registry policies p → Formed registry policies (p.shouldDrop policy now).2

theorem Formed.step (h : Formed registry policies p) (place : DomainPlace) (step : DomainStep) :
    ∃ policies, Formed registry policies (p.step registry place step).2 := by
  cases step with
  | next =>
    simp only [Profile.step]
    split
    · exact ⟨policies, h⟩
    · exact ⟨policies, h.use _ place⟩
  | answer answerer domain factor now =>
    simp only [Profile.step]
    split
    · exact ⟨policies, h⟩
    · exact ⟨policies, h.use _ place⟩
  | command shuffler text =>
    simp only [Profile.step]
    cases happly : p.apply registry shuffler text with
    | error => exact ⟨policies, h⟩
    | ok next =>
      obtain ⟨policy, hread, hpolicy⟩ := apply_eq_ok_iff.mp happly
      exact ⟨policies ++ [policy], h.accept text shuffler hread hpolicy⟩

theorem Reachable.formed (h : Reachable registry p) : ∃ policies, Formed registry policies p := by
  induction h with
  | fresh => exact ⟨[], .fresh⟩
  | step place step _ ih =>
    obtain ⟨policies, hformed⟩ := ih
    exact hformed.step place step
  | drop policy now _ ih =>
    obtain ⟨policies, hformed⟩ := ih
    exact ⟨policies, hformed.drop policy now⟩

/-! ## What no use changes -/

@[simp] theorem urls_putDomain (p : Profile) (policy : DomainPolicy) (place : DomainPlace) :
    (p.putDomain policy place).urls = p.urls := by
  cases place <;> rfl

@[simp] theorem defaultUrl_putDomain (p : Profile) (policy : DomainPolicy) (place : DomainPlace) :
    (p.putDomain policy place).defaultUrl = p.defaultUrl := by
  cases place <;> rfl

@[simp] theorem urls_shouldDrop (p : Profile) (policy : UrlPolicy) (now : Nat) :
    (p.shouldDrop policy now).2.urls = p.urls := by
  unfold shouldDrop
  split <;> rfl

@[simp] theorem defaultUrl_shouldDrop (p : Profile) (policy : UrlPolicy) (now : Nat) :
    (p.shouldDrop policy now).2.defaultUrl = p.defaultUrl := by
  unfold shouldDrop
  split <;> rfl

/-- The url policies of profiles fit together if those with the same url policies do. -/
theorem WellLinked.of_urls (h : p.WellLinked) (hurls : q.urls = p.urls) (hdefault : q.defaultUrl = p.defaultUrl) :
    q.WellLinked := by
  obtain ⟨targeted, distinct, unmoded, default_target, default_alone, linked⟩ := h
  simp only [urlPolicies, inherited, ← hurls, ← hdefault] at *
  constructor <;> assumption

theorem Formed.wellLinked (h : Formed registry policies p) : p.WellLinked := by
  induction h with
  | fresh => exact wellLinked_fresh
  | accept _ _ _ _ happly ih => exact wellLinked_applyPolicy ih happly
  | use policy place _ ih => exact ih.of_urls (urls_putDomain _ policy place) (defaultUrl_putDomain _ policy place)
  | drop policy now _ ih => exact ih.of_urls (urls_shouldDrop _ policy now) (defaultUrl_shouldDrop _ policy now)

/-! ## Where targets stand -/

def targets (p : Profile) : List String := p.urls.filterMap UrlPolicy.target?

theorem hasUrl_iff_mem_targets : p.hasUrl target ↔ target ∈ p.targets := by
  rw [hasUrl_iff, targets, List.mem_filterMap, List.mem_map]

private theorem targets_map (f : UrlPolicy → UrlPolicy) (hf : ∀ url, (f url).target? = url.target?) :
    (p.urls.map f).filterMap UrlPolicy.target? = p.targets := by
  rw [List.filterMap_map]
  exact List.filterMap_congr fun url _ => hf url

theorem targets_applyDefault (p : Profile) (rule : UrlRule) : (p.applyDefault rule).targets = p.targets :=
  targets_map _ fun _ => rfl

theorem targets_applyTargeted {rule : UrlRule} {pattern : UrlPattern} (p : Profile) (h : rule.target = some pattern) :
    (p.applyTargeted rule pattern.text).targets =
      if pattern.text ∈ p.targets then p.targets else p.targets ++ [pattern.text] := by
  unfold applyTargeted
  by_cases hold : pattern.text ∈ p.targets
  · rw [if_pos (hasUrl_iff_mem_targets.mpr hold), if_pos hold]
    refine targets_map _ fun url => ?_
    split <;> simp [UrlPolicy.target?]
  · rw [if_neg (mt hasUrl_iff_mem_targets.mp hold), if_neg hold]
    simp [targets, UrlPolicy.target?, h]

theorem targets_applyRemoval (p : Profile) (removal : Removal) : (p.applyRemoval removal).targets = p.targets := by
  unfold applyRemoval
  split
  · simp only [targets, relink, List.map_map]
    exact targets_map _ fun _ => rfl
  · split
    · rfl
    · refine targets_map _ fun url => ?_
      split <;> rfl

theorem targets_applyDomain (p : Profile) (shuffler : Shuffler) (rule : DomainRule) :
    (p.applyDomain shuffler rule).targets = p.targets := by
  unfold applyDomain
  split
  · rfl
  · split <;> rfl

/-- The targets stand in the order of their definitions. -/
structure Ordered (policies : List Policy) (targets : List String) : Prop where
  mem_iff : ∀ target, target ∈ targets ↔ (definedAt? target policies).isSome
  sorted : targets.Pairwise fun s t => ∃ i ∈ definedAt? s policies, ∃ j ∈ definedAt? t policies, i < j

theorem Ordered.keep {targets : List String} (h : Ordered policies targets)
    (hkeep : ∀ target, definedAt? target (policies ++ [policy]) = definedAt? target policies) :
    Ordered (policies ++ [policy]) targets := by
  obtain ⟨hmem, hsorted⟩ := h
  constructor <;> simpa only [hkeep]

theorem Ordered.applyUrl (h : Ordered policies p.targets) (rule : UrlRule) :
    Ordered (policies ++ [.url rule]) (p.applyUrl rule).targets := by
  unfold Profile.applyUrl
  cases ht : rule.target with
  | none =>
    dsimp only
    rw [targets_applyDefault]
    exact h.keep fun target => by simp [definedAt?_concat, Policy.redefine, ht]
  | some pattern =>
    dsimp only
    rw [targets_applyTargeted p ht]
    have hother : ∀ target, target ≠ pattern.text →
        definedAt? target (policies ++ [.url rule]) = definedAt? target policies := fun target hne => by
      simp [definedAt?_concat, Policy.redefine, ht, hne.symm]
    have hself : definedAt? pattern.text (policies ++ [.url rule]) =
        some ((definedAt? pattern.text policies).getD policies.length) := by
      simp [definedAt?_concat, Policy.redefine, ht]
    split
    · rename_i hold
      -- A target that is defined stays where it is.
      obtain ⟨i, hi⟩ := Option.isSome_iff_exists.mp ((h.mem_iff _).mp hold)
      refine h.keep fun target => ?_
      by_cases htarget : target = pattern.text
      · rw [htarget, hself, hi, Option.getD_some]
      · exact hother target htarget
    · rename_i hnew
      have hkept : ∀ s ∈ p.targets, definedAt? s (policies ++ [.url rule]) = definedAt? s policies := fun s hs =>
        hother s fun heq => hnew (heq ▸ hs)
      have hnone : definedAt? pattern.text policies = none := by
        rw [← Option.not_isSome_iff_eq_none, ← h.mem_iff]
        exact hnew
      rw [hnone, Option.getD_none] at hself
      refine ⟨fun target => ?_, ?_⟩
      · by_cases htarget : target = pattern.text
        · simp [htarget, hself]
        · simp [htarget, hother target htarget, h.mem_iff]
      · rw [List.pairwise_append]
        refine ⟨h.sorted.imp_of_mem fun {s t} hs ht hlt => ?_, List.pairwise_singleton _ _, fun s hs t htext => ?_⟩
        · rwa [hkept s hs, hkept t ht]
        · obtain rfl := List.mem_singleton.mp htext
          obtain ⟨i, hi⟩ := Option.isSome_iff_exists.mp ((h.mem_iff s).mp hs)
          rw [hkept s hs, hself]
          exact ⟨i, hi, policies.length, rfl, definedAt?_lt hi⟩

theorem Ordered.applyDeletion (h : Ordered policies p.targets) (deletion : Deletion) :
    Ordered (policies ++ [.delete deletion]) (p.applyDeletion deletion).targets := by
  obtain ⟨scope, name⟩ := deletion
  cases scope with
  | domain =>
    have hsame : (p.applyDeletion ⟨.domain, name⟩).targets = p.targets := by cases name <;> rfl
    rw [hsame]
    exact h.keep fun target => by simp [definedAt?_concat, Policy.redefine]
  | url =>
    cases name with
    | all =>
      refine ⟨fun target => ?_, List.Pairwise.nil⟩
      simp [definedAt?_concat, Policy.redefine, Profile.applyDeletion, targets]
    | named name =>
      cases hkey : urlKey? name with
      | none =>
        have hsame : p.applyDeletion ⟨.url, .named name⟩ = p := by simp [Profile.applyDeletion, hkey]
        rw [hsame]
        exact h.keep fun target => by simp [definedAt?_concat, Policy.redefine, hkey]
      | some key =>
        have htargets : (p.applyDeletion ⟨.url, .named name⟩).targets = p.targets.filter (· ≠ key) := by
          simp only [Profile.applyDeletion, hkey, targets, List.filterMap_filter, List.filter_filterMap]
          refine List.filterMap_congr fun url _ => ?_
          cases htarget : url.target? <;> simp [Option.filter]
        have hother : ∀ target, target ≠ key →
            definedAt? target (policies ++ [.delete ⟨.url, .named name⟩]) = definedAt? target policies := by
          intro target hne
          simp [definedAt?_concat, Policy.redefine, hkey, hne.symm]
        rw [htargets]
        refine ⟨fun target => ?_, ?_⟩
        · by_cases htarget : target = key
          · simp [htarget, definedAt?_concat, Policy.redefine, hkey]
          · simp [htarget, hother target htarget, h.mem_iff]
        · refine (h.sorted.filter _).imp_of_mem fun {s t} hs ht hlt => ?_
          rw [hother s (by simpa using (List.mem_filter.mp hs).2), hother t (by simpa using (List.mem_filter.mp ht).2)]
          exact hlt

theorem Ordered.applyPolicy (h : Ordered policies p.targets) {shuffler : Shuffler}
    (hq : p.applyPolicy shuffler policy = .ok q) : Ordered (policies ++ [policy]) q.targets := by
  cases policy with
  | url rule =>
    cases hq
    exact h.applyUrl rule
  | delete deletion =>
    cases hq
    exact h.applyDeletion deletion
  | remove removal =>
    cases hq
    rw [targets_applyRemoval]
    exact h.keep fun target => by simp [definedAt?_concat, Policy.redefine]
  | domain rule =>
    cases hq
    rw [targets_applyDomain]
    exact h.keep fun target => by simp [definedAt?_concat, Policy.redefine]
  | _ => cases hq

/-- The url policies of every profile stand in the order in which their targets have been defined. -/
theorem Formed.ordered (h : Formed registry policies p) : Ordered policies p.targets := by
  induction h with
  | fresh => exact ⟨fun target => by simp [definedAt?, targets], List.Pairwise.nil⟩
  | accept _ _ _ _ happly ih => exact ih.applyPolicy happly
  | use policy place _ ih => rwa [targets, urls_putDomain]
  | drop policy now _ ih => rwa [targets, urls_shouldDrop]

end Profile

end TrafficPolicy
