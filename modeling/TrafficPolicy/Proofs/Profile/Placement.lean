import TrafficPolicy.Proofs.Profile.Withdrawal

/-!
# Where a definition puts its policy

The policies for urls and those for domains are two sections. A definition for a target that is there already takes the
place of the old policy. Any other policy for a target comes last, and the one for everything comes first. All other
policies stay what they are, in the order in which they are.
-/

namespace TrafficPolicy

/-! ## Sections -/

section Sections

variable {α β κ : Type} {key : α → Option κ} {place : Option κ} {change : α → α} {fresh : α} {general : Option α}
  {items : List α}

/-- What a definition does to a section. The key of what is for everything is `none`. -/
inductive Defines (key : α → Option κ) (place : Option κ) (change : α → α) (fresh : α) : List α → List α → Prop
  | inPlace (before : List α) (old : α) (after : List α) : key old = place → key (change old) = place →
      Defines key place change fresh (before ++ old :: after) (before ++ change old :: after)
  | first {items : List α} : place = none → place ∉ items.map key → key fresh = place →
      Defines key place change fresh items (fresh :: items)
  | last {items : List α} : place ≠ none → place ∉ items.map key → key fresh = place →
      Defines key place change fresh items (items ++ [fresh])

/-- After a definition there is an item with its key. -/
theorem Defines.mem {items' : List α} (h : Defines key place change fresh items items') : place ∈ items'.map key := by
  cases h with
  | inPlace before old after _ hkey => simp [hkey]
  | first _ _ hkey => simp [hkey]
  | last _ _ hkey => simp [hkey]

/-- What is for everything stands apart from what is for a target, and each target occurs once. -/
structure Sectioned (key : α → Option κ) (general : Option α) (items : List α) : Prop where
  general : ∀ item ∈ general, key item = none
  targeted : ∀ item ∈ items, key item ≠ none
  distinct : (items.map key).Nodup

theorem sectioned_map_iff {f : β → α} {general : Option β} {items : List β} :
    Sectioned key (general.map f) (items.map f) ↔ Sectioned (key ∘ f) general items := by
  constructor <;> rintro ⟨hgeneral, htargeted, hdistinct⟩ <;> constructor <;> simp_all

/-- The items for targets after a definition for one of them. -/
def placed [DecidableEq κ] (key : α → Option κ) (place : Option κ) (change : α → α) (fresh : α) (items : List α) :
    List α :=
  if place ∈ items.map key then items.map fun item => if key item = place then change item else item
  else items ++ [fresh]

variable [DecidableEq κ]

theorem Sectioned.placed (h : Sectioned key general items) (hplace : place ≠ none)
    (hchange : ∀ old, key old = place → key (change old) = place) (hfresh : key fresh = place) :
    Sectioned key general (placed key place change fresh items) := by
  unfold TrafficPolicy.placed
  split
  · have hkeys : (items.map fun item => if key item = place then change item else item).map key = items.map key := by
      rw [List.map_map]
      refine List.map_congr_left fun old _ => ?_
      by_cases hold : key old = place
      · simp [hold, hchange old hold]
      · simp [hold]
    refine ⟨h.general, fun item hitem => ?_, hkeys ▸ h.distinct⟩
    obtain ⟨old, hold, heq⟩ := List.mem_map.mp (hkeys ▸ List.mem_map_of_mem (f := key) hitem)
    exact heq ▸ h.targeted old hold
  · rename_i hnew
    refine ⟨h.general, fun item hitem => ?_, ?_⟩
    · rcases List.mem_append.mp hitem with hold | hitem
      · exact h.targeted item hold
      · rw [List.mem_singleton.mp hitem, hfresh]
        exact hplace
    · rw [List.map_append, List.map_singleton, hfresh]
      rw [← List.concat_eq_append]
      exact h.distinct.concat hnew

theorem Sectioned.defines_placed (h : Sectioned key general items) (hplace : place ≠ none)
    (hchange : ∀ old, key old = place → key (change old) = place) (hfresh : key fresh = place) :
    Defines key place change fresh (general.toList ++ items)
      (general.toList ++ TrafficPolicy.placed key place change fresh items) := by
  unfold TrafficPolicy.placed
  split
  · rename_i hmem
    obtain ⟨old, hold, rfl⟩ := List.mem_map.mp hmem
    obtain ⟨before, after, rfl⟩ := List.append_of_mem hold
    rw [map_key_eq h.distinct, ← List.append_assoc, ← List.append_assoc]
    exact .inPlace _ old after rfl (hchange old rfl)
  · rename_i hnew
    rw [← List.append_assoc]
    refine .last hplace ?_ hfresh
    rw [List.map_append, List.mem_append]
    rintro (hgeneral | hmem)
    · obtain ⟨item, hitem, rfl⟩ := List.mem_map.mp hgeneral
      exact hplace (h.general item (Option.mem_toList.mp hitem))
    · exact hnew hmem

omit [DecidableEq κ] in
theorem Sectioned.defines_general (h : Sectioned key general items)
    (hchange : ∀ old, key old = none → key (change old) = none) (hfresh : key fresh = none) :
    Defines key none change fresh (general.toList ++ items) (general.elim fresh change :: items) := by
  cases hgeneral : general with
  | none =>
    refine .first rfl (fun hmem => ?_) hfresh
    obtain ⟨item, hitem, hkey⟩ := List.mem_map.mp hmem
    exact h.targeted item hitem hkey
  | some old =>
    have hold := h.general old hgeneral
    exact .inPlace [] old items hold (hchange old hold)

end Sections

/-! ## The section of urls -/

theorem UrlRule.target?_stored_update (rule later : UrlRule) : (rule.update later).stored.target? = rule.target? := by
  unfold UrlRule.update
  split <;> rfl

theorem Profile.WellLinked.sectioned_urls {p : Profile} (h : p.WellLinked) :
    Sectioned UrlRule.target? p.ledger.defaultUrl p.ledger.urls := by
  refine sectioned_map_iff.mpr ⟨fun url hurl => ?_, fun url hurl => ?_, h.distinct⟩
  · exact congrArg (Option.map UrlPattern.text) (h.default_target url hurl)
  · obtain ⟨target, htarget⟩ := Option.isSome_iff_exists.mp (h.targeted url hurl)
    simp [UrlRule.target?, htarget]

theorem Ledger.applyUrl_of_target {rule : UrlRule} {target : UrlPattern} (h : rule.target = some target) (l : Ledger) :
    l.applyUrl rule =
      { l with
        urls :=
          placed UrlRule.target? (some target.text) (fun old => (old.update rule).stored) rule.stored l.urls } := by
  have hany : (l.urls.any fun old => old.target? == some target.text) ↔
      some target.text ∈ l.urls.map UrlRule.target? := by
    simp only [List.any_eq_true, beq_iff_eq, List.mem_map]
  unfold Ledger.applyUrl placed
  simp only [h, hany]
  split <;> rfl

theorem Ledger.defines_applyUrl {l : Ledger} (h : Sectioned UrlRule.target? l.defaultUrl l.urls) (rule : UrlRule) :
    Defines UrlRule.target? rule.target? (fun old => (old.update rule).stored) rule.stored l.urlRules
      (l.applyUrl rule).urlRules := by
  have hchange : ∀ place : Option String, ∀ old : UrlRule, old.target? = place →
      (old.update rule).stored.target? = place := fun place old hold => by
    rw [UrlRule.target?_stored_update, hold]
  cases ht : rule.target with
  | none =>
    have hplace : rule.target? = none := by rw [UrlRule.target?, ht, Option.map_none]
    have hnew : ((l.defaultUrl.getD {}).update rule).stored =
        l.defaultUrl.elim rule.stored fun old => (old.update rule).stored := by
      cases l.defaultUrl with
      | none => exact UrlRule.stored_update_empty ht
      | some old => rfl
    unfold Ledger.applyUrl
    rw [hplace, ht, hnew]
    exact h.defines_general (hchange none) hplace
  | some target =>
    have hplace : rule.target? = some target.text := by rw [UrlRule.target?, ht, Option.map_some]
    rw [hplace, applyUrl_of_target ht]
    exact h.defines_placed (Option.some_ne_none _) (hchange _) hplace

/-! ## The section of domains -/

/-- The name that a domain rule is stored under; there is none for all domains. -/
def DomainRule.name? (rule : DomainRule) : Option (List Char) := rule.target.pattern?.map DomainPattern.name

def DomainPolicy.name? (policy : DomainPolicy) : Option (List Char) := policy.rule.name?

theorem DomainPolicy.target_of_name? {policy : DomainPolicy} (h : policy.name? ≠ none) :
    ∃ pattern, policy.rule.target = .pattern pattern := by
  unfold name? DomainRule.name? at h
  cases htarget : policy.rule.target with
  | all => exact absurd (by rw [htarget]; rfl) h
  | pattern pattern => exact ⟨pattern, rfl⟩

theorem DomainPolicy.name?_eq_some_key {policy : DomainPolicy} (h : policy.name? ≠ none) :
    policy.name? = some policy.key := by
  obtain ⟨pattern, htarget⟩ := target_of_name? h
  rw [name?, DomainRule.name?, key, htarget]
  rfl

namespace Profile

variable {registry : Registry} {p q : Profile}

theorem domains_applyDomain {shuffler : Shuffler} {rule : DomainRule} {pattern : DomainPattern}
    (h : ∀ domain ∈ p.domains, domain.name? ≠ none) (ht : rule.target = .pattern pattern) :
    p.applyDomain shuffler rule =
      { p with
        domains :=
          placed DomainPolicy.name? (some pattern.name) (fun old => old.update shuffler rule) (.ofRule shuffler rule)
            p.domains } := by
  have hname : ∀ domain ∈ p.domains, domain.name? = some domain.key := fun domain hdomain =>
    DomainPolicy.name?_eq_some_key (h domain hdomain)
  have hany : (p.domains.any fun domain => domain.key == pattern.name) ↔
      some pattern.name ∈ p.domains.map DomainPolicy.name? := by
    rw [List.map_congr_left hname]
    simp
  have hmap : (p.domains.map fun domain => if domain.key = pattern.name then domain.update shuffler rule else domain) =
      p.domains.map fun domain =>
        if domain.name? = some pattern.name then domain.update shuffler rule else domain :=
    List.map_congr_left fun domain hdomain => by simp [hname domain hdomain]
  unfold applyDomain placed
  simp only [ht, hany, hmap]
  split <;> rfl

theorem defines_applyDomain (h : Sectioned DomainPolicy.name? p.defaultDomain p.domains) (shuffler : Shuffler)
    (rule : DomainRule) :
    Sectioned DomainPolicy.name? (p.applyDomain shuffler rule).defaultDomain (p.applyDomain shuffler rule).domains ∧
      Defines DomainPolicy.name? rule.name? (fun old => old.update shuffler rule) (.ofRule shuffler rule)
        p.domainPolicies (p.applyDomain shuffler rule).domainPolicies := by
  have hchange : ∀ old : DomainPolicy, (old.update shuffler rule).name? = rule.name? := fun old => by
    rw [DomainPolicy.name?, rule_update]
  have hfresh : (DomainPolicy.ofRule shuffler rule).name? = rule.name? := rfl
  cases ht : rule.target with
  | all =>
    have hplace : rule.name? = none := by rw [DomainRule.name?, ht]; rfl
    have hissue : issue shuffler p.defaultDomain rule =
        p.defaultDomain.elim (.ofRule shuffler rule) fun old => old.update shuffler rule := by
      unfold issue
      cases p.defaultDomain <;> rfl
    have hnew : (issue shuffler p.defaultDomain rule).name? = none := by
      rw [hissue]
      cases p.defaultDomain with
      | none => exact hplace
      | some old => exact (hchange old).trans hplace
    have happly : p.applyDomain shuffler rule =
        { p with defaultDomain := some (issue shuffler p.defaultDomain rule) } := by
      unfold applyDomain
      rw [ht]
    rw [happly, hplace]
    refine ⟨⟨fun item hitem => ?_, h.targeted, h.distinct⟩, ?_⟩
    · rw [← Option.some.inj hitem]
      exact hnew
    · have hdefines :
          Defines DomainPolicy.name? none (fun old => old.update shuffler rule) (.ofRule shuffler rule) _ _ :=
        h.defines_general (fun old _ => (hchange old).trans hplace) (hfresh.trans hplace)
      rwa [← hissue] at hdefines
  | pattern pattern =>
    have hplace : rule.name? = some pattern.name := by rw [DomainRule.name?, ht]; rfl
    rw [domains_applyDomain h.targeted ht, hplace]
    exact ⟨h.placed (Option.some_ne_none _) (fun old _ => (hchange old).trans hplace) (hfresh.trans hplace),
      h.defines_placed (Option.some_ne_none _) (fun old _ => (hchange old).trans hplace) (hfresh.trans hplace)⟩

theorem domains_applyUrl (p : Profile) (rule : UrlRule) :
    (p.applyUrl rule).defaultDomain = p.defaultDomain ∧ (p.applyUrl rule).domains = p.domains := by
  unfold applyUrl
  split
  · exact ⟨rfl, rfl⟩
  · unfold applyTargeted
    split <;> exact ⟨rfl, rfl⟩

theorem urls_applyDomain (p : Profile) (shuffler : Shuffler) (rule : DomainRule) :
    (p.applyDomain shuffler rule).defaultUrl = p.defaultUrl ∧ (p.applyDomain shuffler rule).urls = p.urls ∧
      (p.applyDomain shuffler rule).drops = p.drops := by
  unfold applyDomain
  split
  · exact ⟨rfl, rfl, rfl⟩
  · split <;> exact ⟨rfl, rfl, rfl⟩

private theorem sectioned_domains_applyPolicy {shuffler : Shuffler} {policy : Policy}
    (h : Sectioned DomainPolicy.name? p.defaultDomain p.domains) (hq : p.applyPolicy shuffler policy = .ok q) :
    Sectioned DomainPolicy.name? q.defaultDomain q.domains := by
  cases policy with
  | url rule =>
    cases hq
    obtain ⟨hdefault, hdomains⟩ := domains_applyUrl p rule
    rwa [hdefault, hdomains]
  | remove removal =>
    cases hq
    unfold applyRemoval
    split
    · exact h
    · split <;> exact h
  | delete deletion =>
    cases hq
    unfold applyDeletion
    split
    · exact h
    · split <;> exact h
    · constructor <;> simp
    · exact ⟨h.general, fun item hitem => h.targeted item (List.mem_filter.mp hitem).1,
        h.distinct.sublist (List.filter_sublist.map _)⟩
  | domain rule =>
    cases hq
    exact (defines_applyDomain h shuffler rule).1
  | _ => cases hq

theorem Reachable.sectioned_domains (h : Reachable registry p) :
    Sectioned DomainPolicy.name? p.defaultDomain p.domains := by
  have hledger := h.ledger_induct (I := fun l => Sectioned DomainRule.name? l.defaultDomain l.domains)
    (by constructor <;> simp) fun hp _ happly =>
      sectioned_map_iff.mpr (sectioned_domains_applyPolicy (sectioned_map_iff.mp hp) happly)
  exact sectioned_map_iff.mp hledger

/-- A definition replaces the policy that is stored for its target where it is, and otherwise adds one: for one target
at the end of its section, for everything at the start. The rules of the other policies of the section and their order
stay, and the other section stays as it is. -/
theorem Reachable.defines_in_place (h : Reachable registry p) (shuffler : Shuffler) :
    (∀ command rule, registry.read command = .ok (.url rule) → ∃ q, p.apply registry shuffler command = .ok q ∧
      Defines UrlRule.target? rule.target? (fun old => (old.update rule).stored) rule.stored
        (p.urlPolicies.map UrlPolicy.rule) (q.urlPolicies.map UrlPolicy.rule) ∧
      q.defaultDomain = p.defaultDomain ∧ q.domains = p.domains) ∧
    ∀ command rule, registry.read command = .ok (.domain rule) → ∃ q, p.apply registry shuffler command = .ok q ∧
      Defines DomainPolicy.name? rule.name? (fun old => old.update shuffler rule) (.ofRule shuffler rule)
        p.domainPolicies q.domainPolicies ∧
      q.defaultUrl = p.defaultUrl ∧ q.urls = p.urls ∧ q.drops = p.drops := by
  constructor
  · intro command rule hread
    refine ⟨p.applyUrl rule, apply_eq_ok_iff.mpr ⟨_, hread, rfl⟩, ?_, domains_applyUrl p rule⟩
    rw [← urlRules_ledger, ← urlRules_ledger, ledger_applyUrl]
    exact Ledger.defines_applyUrl h.wellLinked.sectioned_urls rule
  · intro command rule hread
    exact ⟨p.applyDomain shuffler rule, apply_eq_ok_iff.mpr ⟨_, hread, rfl⟩,
      (defines_applyDomain h.sectioned_domains shuffler rule).2, urls_applyDomain p shuffler rule⟩

/-- The first of two domains is defined again in another spelling. -/
theorem Reachable.defines_in_place_spelled : ∃ p q rule, Reachable .standard p ∧
    p.commands = ["domain a.cn", "domain b.cn"] ∧ p.apply .standard .inOrder "domain A.cn." = .ok q ∧
    Defines DomainPolicy.name? rule.name? (fun old => old.update .inOrder rule) (.ofRule .inOrder rule)
      p.domainPolicies q.domainPolicies ∧
    q.commands = ["domain A.cn.", "domain b.cn"] := by
  let first : DomainRule := domainRule ⟨"a.cn", .exact "a.cn".toList, rfl⟩
  let second : DomainRule := domainRule ⟨"b.cn", .exact "b.cn".toList, rfl⟩
  let third : DomainRule := domainRule ⟨"A.cn.", .exact "a.cn".toList, rfl⟩
  have hfirst : Registry.standard.read "domain a.cn" = .ok (.domain first) :=
    read_domainRule (by decide) (by decide) (by decide) (by decide)
  have hsecond : Registry.standard.read "domain b.cn" = .ok (.domain second) :=
    read_domainRule (by decide) (by decide) (by decide) (by decide)
  have hthird : Registry.standard.read "domain A.cn." = .ok (.domain third) :=
    read_domainRule (by decide) (by decide) (by decide) (by decide)
  let p : Profile := { domains := [.ofRule .inOrder first, .ofRule .inOrder second] }
  have hadded : ({ domains := [.ofRule .inOrder first] } : Profile).applyDomain .inOrder second = p := by decide
  have hp : Reachable .standard p :=
    (Reachable.fresh.apply .inOrder (apply_eq_ok_iff.mpr ⟨_, hfirst, rfl⟩)).apply .inOrder
      (apply_eq_ok_iff.mpr ⟨_, hsecond, congrArg Except.ok hadded⟩)
  obtain ⟨-, hdomain⟩ := hp.defines_in_place .inOrder
  obtain ⟨q, happly, hdefines, -⟩ := hdomain _ _ hthird
  obtain rfl := Except.ok.inj ((apply_eq_ok_iff.mpr ⟨_, hthird, rfl⟩).symm.trans happly)
  exact ⟨p, _, third, hp, by decide, happly, hdefines, by decide⟩

private def cachedDefault : UrlRule := { slots := { content := some .cache } }

private theorem read_cachedDefault : Registry.standard.read "url cache" = .ok (.url cachedDefault) := by
  have hw : Text.words "url cache" = ["url", "cache"] := by decide
  have hb : Registry.standard.builder? "cache" = some (.leaf (.marker .cache)) :=
    Registry.builder?_standard_iff.mpr (.marker .cache)
  exact UrlRule.read_part hw (by decide) ((Registry.builds_leaf hb).mpr ⟨rfl, rfl⟩) rfl

/-- The policy for everything is not added at the end of the url policies. -/
theorem not_appends_default :
    ¬∀ p q command rule, Reachable .standard p → Registry.standard.read command = .ok (.url rule) →
      rule.target? ∉ p.urlPolicies.map UrlPolicy.target? → p.apply .standard .inOrder command = .ok q →
        ∃ new, q.urlPolicies.map (fun url => url.rule.command) =
          p.urlPolicies.map (fun url => url.rule.command) ++ [new] := by
  intro h
  let host : UrlPolicy := ⟨hostRule .host, []⟩
  have hhost : Registry.standard.read "url g.cn" = .ok (.url host.rule) :=
    read_hostRule (by decide) (by decide) (by decide) (by decide) (by decide)
  have hp : Reachable .standard { urls := [host] } :=
    Reachable.fresh.apply .inOrder (apply_eq_ok_iff.mpr ⟨_, hhost, rfl⟩)
  obtain ⟨new, hnew⟩ := h _ _ _ _ hp read_cachedDefault (by decide) (apply_eq_ok_iff.mpr ⟨_, read_cachedDefault, rfl⟩)
  have hfirst := (List.cons.inj hnew).1
  revert hfirst
  decide

end Profile

end TrafficPolicy
