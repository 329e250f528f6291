import TrafficPolicy.Proofs.Profile.Alike
import TrafficPolicy.Proofs.Profile.SoundRules

/-!
# Ledgers of what is read from commands

If all rules are read from their commands as they were written, the commands of a ledger make it again. If they
make it again, all are read so, but for one case: the first url rule, which is read as the default, may be one
that counts for no url.
-/

namespace TrafficPolicy

namespace Ledger

variable {l m : Ledger}

/-- All rules can be written and stand where they belong. -/
structure Tidy (l : Ledger) : Prop extends l.Sound where
  unmoded : ∀ rule ∈ l.urlRules, rule.mode = none
  default_target : ∀ rule ∈ l.defaultUrl, rule.target = none
  targeted : ∀ rule ∈ l.urls, rule.target.isSome
  targets_distinct : (l.urls.map UrlRule.target?).Nodup

/-- The commands of a ledger are read as policies that make a ledger of them again. -/
def Rebuilds (l m : Ledger) : Prop :=
  ∃ policies, List.Forall₂ (fun command policy => Registry.standard.read command = .ok policy) l.commands policies ∧
    run {} policies = .ok m

/-- The same commands are written, and the same command counts for every url and every domain. -/
structure Same (l m : Ledger) : Prop where
  commands : m.commands = l.commands
  urls : ∀ url, m.urlCommand? url = l.urlCommand? url
  domains : ∀ domain, m.domainCommand? domain = l.domainCommand? domain

/-- Every rule is read from its command as it was written. -/
structure Legible (l : Ledger) : Prop where
  urls : ∀ rule ∈ l.urlRules, rule.Legible
  domains : ∀ rule ∈ l.domainRules, rule.Legible

/-- The first url rule is read from its command as a default that is written in the same way, all others are
read as they were written, and it makes no difference which of the two the first one is. -/
structure Shadowed (l : Ledger) (first : UrlRule) (rest : List UrlRule) (again : UrlRule) : Prop where
  no_default : l.defaultUrl = none
  urls_eq : l.urls = first :: rest
  read : Registry.standard.read first.command = .ok (.url again)
  untargeted : again.target = none
  command : again.stored.command = first.command
  urls : ∀ rule ∈ rest, rule.Legible
  domains : ∀ rule ∈ l.domainRules, rule.Legible
  resolves : ∀ url, urlCommand? { l with defaultUrl := some again.stored, urls := rest } url = l.urlCommand? url

end Ledger

/-! ## Rules that are read back -/

namespace UrlRule

variable {rule again : UrlRule}

def ReadsAs (rule again : UrlRule) : Prop :=
  Registry.standard.read rule.command = .ok (.url again)

/-- The command of a rule is read as a rule with the same target and the same command. -/
def ReadsBackAs (rule again : UrlRule) : Prop :=
  rule.ReadsAs again ∧ again.stored.face = rule.face

theorem stored_eq_self (h : rule.mode = none) : rule.stored = rule := by
  obtain ⟨_, slots, target⟩ := rule
  subst h
  rfl

theorem Sound.legible_iff_readsBack (h : rule.Sound) (hmode : rule.mode = none) :
    rule.Legible ↔ ∃ again, ReadsBackAs rule again := by
  rw [h.legible_iff]
  refine exists_congr fun again => ⟨?_, ?_⟩
  · rintro ⟨hread, htarget, hcommand⟩
    refine ⟨hread, ?_⟩
    obtain ⟨_, heq, ⟨-, hagain⟩ | ⟨hnone, hsome⟩⟩ := h.again_of_read hread
    · cases heq
      rw [stored_eq_self (hagain.trans hmode), face, face, htarget, hcommand]
    · cases heq
      exact absurd (htarget.symm.trans hnone) hsome
  · rintro ⟨hread, hface⟩
    obtain ⟨htarget, hcommand⟩ := Prod.mk.inj hface
    refine ⟨hread, htarget, ?_⟩
    obtain ⟨_, heq, ⟨-, hagain⟩ | ⟨hnone, hsome⟩⟩ := h.again_of_read hread
    · cases heq
      rwa [stored_eq_self (hagain.trans hmode)] at hcommand
    · cases heq
      exact absurd (htarget.symm.trans hnone) hsome

end UrlRule

namespace DomainRule

variable {rule : DomainRule}

def ReadsAs (rule again : DomainRule) : Prop :=
  Registry.standard.read rule.command = .ok (.domain again)

def ReadsBackAs (rule again : DomainRule) : Prop :=
  rule.ReadsAs again ∧ again.face = rule.face

theorem Sound.legible_iff_readsBack (h : rule.Sound) : rule.Legible ↔ ∃ again, rule.ReadsBackAs again := by
  rw [h.legible_iff]
  refine exists_congr fun again => and_congr_right fun _ => ?_
  exact Prod.mk.injEq .. ▸ Iff.rfl

end DomainRule

namespace Ledger

variable {l m : Ledger}

theorem Tidy.sound_domain (h : l.Tidy) {rule : DomainRule} (hrule : rule ∈ l.domainRules) : rule.Sound := by
  rcases List.mem_append.mp hrule with hd | hd
  · exact (h.defaultDomain rule (Option.mem_toList.mp hd)).1
  · exact (h.domains rule hd).1

theorem Tidy.legible_url_iff (h : l.Tidy) {rule : UrlRule} (hrule : rule ∈ l.urlRules) :
    rule.Legible ↔ ∃ again, rule.ReadsBackAs again :=
  (h.urls rule hrule).legible_iff_readsBack (h.unmoded rule hrule)

theorem Tidy.legible_domain_iff (h : l.Tidy) {rule : DomainRule} (hrule : rule ∈ l.domainRules) :
    rule.Legible ↔ ∃ again, rule.ReadsBackAs again :=
  (h.sound_domain hrule).legible_iff_readsBack

/-! ## What is read as it was written gives the profile again -/

/-- Rules that the commands of a ledger are read as, and the ledger of them. -/
theorem rebuilds_of_rules {default? : Option UrlRule} {urls : List UrlRule} {defaultDomain? : Option DomainRule}
    {domains : List DomainRule}
    (hurls : List.Forall₂ UrlRule.ReadsAs l.urlRules (default?.toList ++ urls))
    (hdomains : List.Forall₂ DomainRule.ReadsAs l.domainRules (defaultDomain?.toList ++ domains))
    (hdefault : ∀ rule ∈ default?, rule.target = none) (htargeted : ∀ rule ∈ urls, rule.target.isSome)
    (hdistinct : (urls.map UrlRule.target?).Nodup)
    (hall : ∀ rule ∈ defaultDomain?, rule.target = .all) (hpattern : ∀ rule ∈ domains, rule.target ≠ .all)
    (hkeys : (domains.map DomainRule.key).Nodup) :
    Rebuilds l ⟨default?.map UrlRule.stored, urls.map UrlRule.stored, defaultDomain?, domains⟩ := by
  refine ⟨(default?.toList ++ urls).map Policy.url ++ (defaultDomain?.toList ++ domains).map Policy.domain,
    List.rel_append ?_ ?_, ?_⟩
  · rwa [List.forall₂_map_left_iff, List.forall₂_map_right_iff]
  · rwa [List.forall₂_map_left_iff, List.forall₂_map_right_iff]
  · rw [List.map_append, List.map_append, List.append_assoc, run_append (run_default hdefault rfl),
      run_append (run_urls htargeted (by simpa using hdistinct)), run_append (run_defaultDomain hall rfl),
      run_domains hpattern (by simpa using hkeys)]
    simp

/-- Members that are related have equal images. -/
private theorem map_eq_of_forall₂ {α β γ : Type} {R : α → β → Prop} {f : α → γ} {g : β → γ}
    (hR : ∀ a b, R a b → g b = f a) {xs : List α} {ys : List β} (h : List.Forall₂ R xs ys) :
    ys.map g = xs.map f := by
  induction h with
  | nil => rfl
  | cons hab _ ih => rw [List.map_cons, List.map_cons, hR _ _ hab, ih]

private theorem forall_of_map_eq {α β γ : Type} {f : α → γ} {g : β → γ} {xs : List α} {ys : List β}
    (h : ys.map g = xs.map f) {P : γ → Prop} (hxs : ∀ x ∈ xs, P (f x)) : ∀ y ∈ ys, P (g y) := by
  intro y hy
  obtain ⟨x, hx, heq⟩ := List.mem_map.mp (h ▸ List.mem_map_of_mem hy)
  exact heq ▸ hxs x hx

/-- Rules that are read back make a ledger that reads alike. -/
theorem exists_urls (rules : List UrlRule) (hrules : ∀ rule ∈ rules, ∃ again, UrlRule.ReadsBackAs rule again) :
    ∃ urls : List UrlRule, List.Forall₂ UrlRule.ReadsAs rules urls ∧
      urls.map UrlRule.target = rules.map UrlRule.target ∧
      (urls.map UrlRule.stored).map UrlRule.face = rules.map UrlRule.face := by
  obtain ⟨urls, hurls⟩ := Text.exists_forall₂ hrules
  refine ⟨urls, hurls.imp fun _ _ h => h.1, ?_, ?_⟩
  · exact map_eq_of_forall₂ (fun _ _ h => (Prod.mk.inj h.2).1) hurls
  · rw [List.map_map]
    exact map_eq_of_forall₂ (fun _ _ h => h.2) hurls

theorem exists_domains (rules : List DomainRule) (hrules : ∀ rule ∈ rules, ∃ again, DomainRule.ReadsBackAs rule again) :
    ∃ domains : List DomainRule, List.Forall₂ DomainRule.ReadsAs rules domains ∧
      domains.map DomainRule.target = rules.map DomainRule.target ∧
      domains.map DomainRule.face = rules.map DomainRule.face := by
  obtain ⟨domains, hdomains⟩ := Text.exists_forall₂ hrules
  refine ⟨domains, hdomains.imp fun _ _ h => h.1, ?_, ?_⟩
  · exact map_eq_of_forall₂ (fun _ _ h => (Prod.mk.inj h.2).1) hdomains
  · exact map_eq_of_forall₂ (fun _ _ h => h.2) hdomains

private theorem exists_defaultDomain (rule? : Option DomainRule)
    (hrules : ∀ rule ∈ rule?, ∃ again, DomainRule.ReadsBackAs rule again) (hall : ∀ rule ∈ rule?, rule.target = .all) :
    ∃ again? : Option DomainRule, List.Forall₂ DomainRule.ReadsAs rule?.toList again?.toList ∧
      (∀ again ∈ again?, again.target = .all) ∧
      again?.map DomainRule.command = rule?.map DomainRule.command := by
  cases rule? with
  | none => exact ⟨none, .nil, by simp, rfl⟩
  | some rule =>
    obtain ⟨again, hread, hface⟩ := hrules rule rfl
    obtain ⟨htarget, hcommand⟩ := Prod.mk.inj hface
    refine ⟨some again, .cons hread .nil, ?_, congrArg some hcommand⟩
    rintro _ ⟨⟩
    exact htarget.trans (hall rule rfl)

/-- Rules that are read back make a ledger that reads alike. The default may be read from other rules than that
for everything. -/
theorem Tidy.exists_rebuilds (h : l.Tidy) (before rest : List UrlRule) (default? : Option UrlRule)
    (hsplit : l.urlRules = before ++ rest) (hrest : rest.Sublist l.urls)
    (hdefault : ∀ rule ∈ default?, rule.target = none)
    (hbefore : List.Forall₂ UrlRule.ReadsAs before default?.toList)
    (hurls : ∀ rule ∈ rest, rule.Legible) (hdomains : ∀ rule ∈ l.domainRules, rule.Legible) :
    ∃ m, Rebuilds l m ∧ Alike { l with defaultUrl := default?.map UrlRule.stored, urls := rest } m := by
  have hurlsBack : ∀ rule ∈ rest, ∃ again, UrlRule.ReadsBackAs rule again := by
    intro rule hrule
    have hmem : rule ∈ l.urlRules := by
      rw [hsplit]
      exact List.mem_append_right _ hrule
    exact (h.legible_url_iff hmem).mp (hurls rule hrule)
  have hdomainsBack : ∀ rule ∈ l.domainRules, ∃ again, DomainRule.ReadsBackAs rule again :=
    fun rule hrule => (h.legible_domain_iff hrule).mp (hdomains rule hrule)
  obtain ⟨urls, hread, htargets, hfaces⟩ := exists_urls rest hurlsBack
  obtain ⟨defaultDomain?, hreadAll, hall, hcommandAll⟩ := exists_defaultDomain l.defaultDomain
    (fun rule hrule => hdomainsBack rule (List.mem_append_left _ (Option.mem_toList.mpr hrule)))
    fun rule hrule => (h.defaultDomain rule hrule).2
  obtain ⟨domains, hreadDomains, htargetsDomains, hfacesDomains⟩ := exists_domains l.domains fun rule hrule =>
    hdomainsBack rule (List.mem_append_right _ hrule)
  have hkeys : domains.map DomainRule.key = l.domains.map DomainRule.key := by
    have hmap := congrArg (List.map fun target : DomainTarget => normalDomain target.text.toList) htargetsDomains
    rwa [List.map_map, List.map_map] at hmap
  have hdistinct : urls.map UrlRule.target? = rest.map UrlRule.target? := by
    have hmap := congrArg (List.map (Option.map UrlPattern.text)) htargets
    rwa [List.map_map, List.map_map] at hmap
  refine ⟨_, @rebuilds_of_rules l default? urls defaultDomain? domains ?_ ?_ hdefault ?_ ?_ hall ?_ ?_, rfl,
    hfaces.symm, hcommandAll.symm, hfacesDomains.symm⟩
  · rw [hsplit]
    exact List.rel_append hbefore hread
  · exact List.rel_append hreadAll hreadDomains
  · exact forall_of_map_eq htargets (P := fun target => target.isSome) fun rule hrule =>
      h.targeted rule (hrest.subset hrule)
  · rw [hdistinct]
    exact h.targets_distinct.sublist (hrest.map _)
  · exact forall_of_map_eq htargetsDomains (P := fun target => target ≠ .all) fun rule hrule =>
      (h.domains rule hrule).2
  · rw [hkeys]
    exact h.distinct

theorem Alike.same (h : Alike l m) : Same l m :=
  ⟨h.commands_eq.symm, fun url => (h.urlCommand?_eq url).symm, fun domain => (h.domainCommand?_eq domain).symm⟩

theorem Same.trans {n : Ledger} (h : Same l m) (hm : Same m n) : Same l n :=
  ⟨hm.commands.trans h.commands, fun url => (hm.urls url).trans (h.urls url),
    fun domain => (hm.domains domain).trans (h.domains domain)⟩

theorem Tidy.same_of_legible (h : l.Tidy) (hl : l.Legible) : ∃ m, Rebuilds l m ∧ Same l m := by
  obtain ⟨default?, hbefore, hcommand, hdefault⟩ : ∃ default? : Option UrlRule,
      List.Forall₂ UrlRule.ReadsAs l.defaultUrl.toList default?.toList ∧
      (default?.map UrlRule.stored).map UrlRule.command = l.defaultUrl.map UrlRule.command ∧
      ∀ rule ∈ default?, rule.target = none := by
    cases hd : l.defaultUrl with
    | none => exact ⟨none, .nil, rfl, by simp⟩
    | some rule =>
      have hmem : rule ∈ l.urlRules := by simp [urlRules, hd]
      obtain ⟨again, hread, hface⟩ :=
        (h.legible_url_iff hmem).mp (hl.urls rule hmem)
      obtain ⟨htarget, hcommand⟩ := Prod.mk.inj hface
      refine ⟨some again, .cons hread .nil, congrArg some hcommand, ?_⟩
      rintro _ ⟨⟩
      exact htarget.trans (h.default_target rule hd)
  obtain ⟨m, hm, halike⟩ := h.exists_rebuilds l.defaultUrl.toList l.urls default? rfl (List.Sublist.refl _)
    hdefault hbefore (fun rule hrule => hl.urls rule (List.mem_append_right _ hrule)) hl.domains
  have hsame : Same l { l with defaultUrl := default?.map UrlRule.stored } :=
    Alike.same ⟨hcommand.symm, rfl, rfl, rfl⟩
  exact ⟨m, hm, hsame.trans halike.same⟩

theorem Tidy.same_of_shadowed (h : l.Tidy) {first again : UrlRule} {rest : List UrlRule}
    (hs : l.Shadowed first rest again) : ∃ m, Rebuilds l m ∧ Same l m := by
  obtain ⟨m, hm, halike⟩ := h.exists_rebuilds [first] rest (some again)
    (by simp [urlRules, hs.no_default, hs.urls_eq]) (hs.urls_eq ▸ List.sublist_cons_self first rest)
    (by rintro _ ⟨⟩; exact hs.untargeted) (.cons hs.read .nil) hs.urls hs.domains
  have hsame : Same l { l with defaultUrl := some again.stored, urls := rest } := by
    refine ⟨?_, hs.resolves, fun _ => rfl⟩
    simp [commands, urlRules, domainRules, hs.no_default, hs.urls_eq, hs.command]
  exact ⟨m, hm, hsame.trans halike.same⟩

/-! ## What gives the profile again is read as it was written -/

/-- A rule that is read as a rule keeps its target, or loses it to an option in front of it. -/
def ReadsUrl (rule again : UrlRule) : Prop :=
  rule.ReadsAs again ∧ again.Sound ∧
    (again.target = rule.target ∧ again.mode = rule.mode ∨ again.target = none ∧ rule.target ≠ none)

private theorem flatMap_untargeted (rules : List UrlRule) :
    (rules.map Policy.url).flatMap Policy.untargeted =
      (rules.filter fun rule => rule.target.isNone).map UrlRule.stored := by
  induction rules with
  | nil => rfl
  | cons rule rules ih => cases ht : rule.target <;> simp [Policy.untargeted, ht, ih]

private theorem flatMap_targeted (rules : List UrlRule) :
    (rules.map Policy.url).flatMap Policy.targeted =
      (rules.filter fun rule => rule.target.isSome).map UrlRule.stored := by
  induction rules with
  | nil => rfl
  | cons rule rules ih => cases ht : rule.target <;> simp [Policy.targeted, ht, ih]

/-- A rule that is read without a target is the first one: the commands of the others would move by one place. -/
theorem Tidy.targeted_tail (h : l.Tidy) {first : UrlRule} {again : List UrlRule}
    (hread : List.Forall₂ ReadsUrl l.urlRules (first :: again))
    (hone : ((first :: again).filter fun rule => rule.target.isNone).length ≤ 1)
    (hcommands : (((first :: again).filter fun rule => rule.target.isNone) ++
      (first :: again).filter fun rule => rule.target.isSome).map (fun rule => rule.stored.command) =
        l.urlRules.map UrlRule.command) : ∀ rule ∈ again, rule.target.isSome := by
  intro moved hmoved
  by_contra hnone
  have hmem : moved ∈ again.filter fun rule => rule.target.isNone :=
    List.mem_filter.mpr ⟨hmoved, by simpa using hnone⟩
  have hpos := List.length_pos_of_mem hmem
  have hfirst : first.target.isSome := by
    by_contra hfirst
    rw [List.filter_cons_of_pos (by simpa using hfirst), List.length_cons] at hone
    omega
  obtain ⟨target, htarget⟩ := Option.isSome_iff_exists.mp hfirst
  have hskip : (first :: again).filter (fun rule => rule.target.isNone) =
      again.filter fun rule => rule.target.isNone := List.filter_cons_of_neg (by simp [htarget])
  have htake : (first :: again).filter (fun rule => rule.target.isSome) =
      first :: again.filter fun rule => rule.target.isSome := List.filter_cons_of_pos (by simp [htarget])
  rw [hskip] at hone hcommands
  obtain ⟨other, hother⟩ := List.length_eq_one_iff.mp (Nat.le_antisymm hone hpos)
  obtain ⟨before, after, hbefore, -, hrules⟩ := List.forall₂_cons_right_iff.mp hread
  have hsame : before.target = some target := by
    rcases hbefore.2.2 with ⟨heq, -⟩ | ⟨heq, -⟩
    · rw [← heq, htarget]
    · rw [heq] at htarget
      cases htarget
  -- The rule that is read first has a target, so that there is no default in front of it.
  have hurls : l.urls = before :: after := by
    cases hd : l.defaultUrl with
    | none => simpa [urlRules, hd] using hrules
    | some default =>
      rw [urlRules, hd] at hrules
      obtain rfl := (List.cons.inj hrules).1
      rw [h.default_target default hd] at hsame
      cases hsame
  rw [htake, hother, hrules] at hcommands
  obtain ⟨-, hafter⟩ := List.cons.inj hcommands
  cases after with
  | nil => cases hafter
  | cons next after =>
    have hcommand : first.stored.command = next.command := (List.cons.inj hafter).1
    obtain ⟨target', htarget'⟩ := Option.isSome_iff_exists.mp (h.targeted next (by simp [hurls]))
    have htext := UrlRule.Sound.text_eq_of_command_eq hbefore.2.1.stored
      (h.urls next (by simp [hrules])) hcommand htarget htarget'
    have hdistinct := h.targets_distinct
    rw [hurls, List.map_cons, List.map_cons, List.nodup_cons] at hdistinct
    refine hdistinct.1 (List.mem_cons.mpr (.inl ?_))
    simp [UrlRule.target?, hsame, htarget', htext]

def ReadsDomain (rule again : DomainRule) : Prop :=
  rule.ReadsAs again ∧ again.target = rule.target

private theorem exists_map_of_forall₂ {α β γ : Type} {R : α → γ → Prop} {S : α → β → Prop} {f : β → γ} {xs : List α}
    {zs : List γ} (h : List.Forall₂ R xs zs) (hf : ∀ x ∈ xs, ∀ z ∈ zs, R x z → ∃ y, z = f y ∧ S x y) :
    ∃ ys : List β, zs = ys.map f ∧ List.Forall₂ S xs ys := by
  induction h with
  | nil => exact ⟨[], rfl, .nil⟩
  | @cons x z xs zs hxz _ ih =>
    obtain ⟨y, rfl, hy⟩ := hf x List.mem_cons_self z List.mem_cons_self hxz
    obtain ⟨ys, rfl, hys⟩ := ih fun x hx z hz => hf x (List.mem_cons_of_mem _ hx) z (List.mem_cons_of_mem _ hz)
    exact ⟨y :: ys, rfl, .cons hy hys⟩

/-- Related members with equal images. -/
private theorem forall₂_of_map_eq {α β γ : Type} {R S : α → β → Prop} {f : α → γ} {g : β → γ} {xs : List α}
    {ys : List β} (h : List.Forall₂ R xs ys) (hmap : ys.map g = xs.map f)
    (hS : ∀ x y, y ∈ ys → R x y → g y = f x → S x y) : List.Forall₂ S xs ys := by
  induction h with
  | nil => exact .nil
  | @cons x y xs ys hxy _ ih =>
    obtain ⟨hhead, htail⟩ := List.cons.inj hmap
    exact .cons (hS x y List.mem_cons_self hxy hhead) (ih htail fun x y hy => hS x y (List.mem_cons_of_mem _ hy))

private theorem flatMap_domain {α : Type} {f : Policy → List α} (hf : ∀ rule, f (.domain rule) = [])
    (rules : List DomainRule) : (rules.map Policy.domain).flatMap f = [] := by
  induction rules with
  | nil => rfl
  | cons rule rules ih => rw [List.map_cons, List.flatMap_cons, hf, ih, List.nil_append]

private theorem flatMap_url {α : Type} {f : Policy → List α} (hf : ∀ rule, f (.url rule) = [])
    (rules : List UrlRule) : (rules.map Policy.url).flatMap f = [] := by
  induction rules with
  | nil => rfl
  | cons rule rules ih => rw [List.map_cons, List.flatMap_cons, hf, ih, List.nil_append]

private theorem flatMap_forAll (rules : List DomainRule) :
    (rules.map Policy.domain).flatMap Policy.forAll = rules.filter fun rule => rule.target = .all := by
  induction rules with
  | nil => rfl
  | cons rule rules ih => by_cases ht : rule.target = .all <;> simp [Policy.forAll, ht, ih]

private theorem flatMap_forPattern (rules : List DomainRule) :
    (rules.map Policy.domain).flatMap Policy.forPattern = rules.filter fun rule => rule.target ≠ .all := by
  induction rules with
  | nil => rfl
  | cons rule rules ih => by_cases ht : rule.target = .all <;> simp [Policy.forPattern, ht, ih]

/-- If the commands of a ledger make as many rules again as they are, each of them has made one. -/
theorem Tidy.exists_rules (h : l.Tidy) (hm : Rebuilds l m) (hcommands : m.commands = l.commands) :
    ∃ (urls : List UrlRule) (domains : List DomainRule), List.Forall₂ ReadsUrl l.urlRules urls ∧
      List.Forall₂ ReadsDomain l.domainRules domains ∧
      m.defaultUrl.toList = (urls.filter fun rule => rule.target.isNone).map UrlRule.stored ∧
      m.urls = (urls.filter fun rule => rule.target.isSome).map UrlRule.stored ∧ m.domainRules = domains := by
  obtain ⟨policies, hread, hrun⟩ := hm
  have hsize : m.size = size {} + policies.length := by
    rw [← hread.length_eq, ← hcommands, length_commands]
    simp [size, urlRules, domainRules]
  have hextends := (extends_of_run hrun).2 hsize
  obtain ⟨forUrls, forDomains, hforUrls, hforDomains, rfl⟩ := Text.forall₂_append_left_iff.mp hread
  obtain ⟨urls, rfl, hurls⟩ := exists_map_of_forall₂ (List.forall₂_map_left_iff.mp hforUrls) (S := ReadsUrl)
    (f := Policy.url) (by
    intro rule hrule policy _ hpolicy
    obtain ⟨again, rfl, htarget⟩ := (h.urls rule hrule).again_of_read hpolicy
    exact ⟨again, rfl, hpolicy, Registry.sound_of_read hpolicy, htarget⟩)
  obtain ⟨domains, rfl, hdomains⟩ := exists_map_of_forall₂ (List.forall₂_map_left_iff.mp hforDomains)
    (S := ReadsDomain) (f := Policy.domain) (by
    intro rule hrule policy hmem hpolicy
    rcases (h.sound_domain hrule).again_of_read hpolicy with ⟨deletion, rfl⟩ | ⟨again, rfl, htarget⟩
    · rcases hextends.rules _ (List.mem_append_right _ hmem) with ⟨_, heq⟩ | ⟨_, heq⟩ <;> cases heq
    · exact ⟨again, rfl, hpolicy, htarget⟩)
  refine ⟨urls, domains, hurls, hdomains, ?_, ?_, ?_⟩
  · rw [hextends.defaultUrl, List.flatMap_append, flatMap_untargeted, flatMap_domain fun _ => rfl]
    simp
  · rw [hextends.urls, List.flatMap_append, flatMap_targeted, flatMap_domain fun _ => rfl]
    simp
  · rw [domainRules, hextends.defaultDomain, hextends.domains, List.flatMap_append, List.flatMap_append,
      flatMap_forAll, flatMap_forPattern, flatMap_url fun _ => rfl, flatMap_url fun _ => rfl]
    obtain ⟨all, others, hall, hothers, rfl⟩ := Text.forall₂_append_left_iff.mp hdomains
    have htargetAll : ∀ rule ∈ all, rule.target = .all :=
      forall_of_map_eq (map_eq_of_forall₂ (fun _ _ h => h.2) hall) (P := fun target => target = .all)
        fun rule hrule => (h.defaultDomain rule (Option.mem_toList.mp hrule)).2
    have htargetOthers : ∀ rule ∈ others, rule.target ≠ .all :=
      forall_of_map_eq (map_eq_of_forall₂ (fun _ _ h => h.2) hothers) (P := fun target => target ≠ .all)
        fun rule hrule => (h.domains rule hrule).2
    have hkeep : (all ++ others).filter (fun rule => rule.target = .all) = all := by
      rw [List.filter_append, List.filter_eq_self.mpr (by simpa using htargetAll),
        List.filter_eq_nil_iff.mpr (by simpa using htargetOthers), List.append_nil]
    have hdrop : (all ++ others).filter (fun rule => rule.target ≠ .all) = others := by
      rw [List.filter_append, List.filter_eq_nil_iff.mpr (by simpa using htargetAll),
        List.filter_eq_self.mpr (by simpa using htargetOthers), List.nil_append]
    rw [hkeep, hdrop]
    simp

theorem Tidy.legible_domains (h : l.Tidy) {domains : List DomainRule}
    (hread : List.Forall₂ ReadsDomain l.domainRules domains)
    (hcommands : domains.map DomainRule.command = l.domainRules.map DomainRule.command) :
    ∀ rule ∈ l.domainRules, rule.Legible := by
  intro rule hrule
  have hback : List.Forall₂ DomainRule.ReadsBackAs l.domainRules domains :=
    forall₂_of_map_eq hread hcommands fun _ _ _ hagain hcommand => ⟨hagain.1, Prod.ext hagain.2 hcommand⟩
  obtain ⟨again, -, hagain⟩ := Text.exists_of_forall₂ hback rule hrule
  exact (h.legible_domain_iff hrule).mpr ⟨again, hagain⟩

private theorem filter_of_targeted {rules : List UrlRule} (h : ∀ rule ∈ rules, rule.target.isSome) :
    (rules.filter fun rule => rule.target.isNone) = [] ∧ (rules.filter fun rule => rule.target.isSome) = rules := by
  refine ⟨List.filter_eq_nil_iff.mpr fun rule hrule => ?_, List.filter_eq_self.mpr h⟩
  simp [Option.isSome_iff_ne_none.mp (h rule hrule)]

/-- Rules that keep their commands and still have a target are read as they were written. -/
theorem readsBack_of_targeted {rules again : List UrlRule} (hread : List.Forall₂ ReadsUrl rules again)
    (htargeted : ∀ rule ∈ again, rule.target.isSome)
    (hcommands : again.map (fun rule => rule.stored.command) = rules.map UrlRule.command) :
    List.Forall₂ UrlRule.ReadsBackAs rules again := by
  refine forall₂_of_map_eq hread hcommands fun rule read hmem hread hcommand => ⟨hread.1, ?_⟩
  rcases hread.2.2 with ⟨htarget, -⟩ | ⟨htarget, -⟩
  · exact Prod.ext htarget hcommand
  · have hsome := htargeted read hmem
    rw [htarget] at hsome
    cases hsome

/-- If the first rule has lost its target, it is the default now, and nothing else has changed. -/
theorem Tidy.shadowed (h : l.Tidy) (hs : Same l m) {before first : UrlRule} {after again : List UrlRule}
    (hrules : l.urlRules = before :: after) (hread : before.ReadsAs first) (hnone : first.target = none)
    (hlost : before.target ≠ none) (hcommand : first.stored.command = before.command)
    (hback : List.Forall₂ UrlRule.ReadsBackAs after again) (hdefault : m.defaultUrl = some first.stored)
    (hurls : m.urls = again.map UrlRule.stored) (hlegible : ∀ rule ∈ after, rule.Legible)
    (hlegibleDomains : ∀ rule ∈ l.domainRules, rule.Legible) : l.Shadowed before after first := by
  have hno : l.defaultUrl = none := by
    cases hd : l.defaultUrl with
    | none => rfl
    | some default =>
      rw [urlRules, hd] at hrules
      obtain rfl := (List.cons.inj hrules).1
      exact absurd (h.default_target default hd) hlost
  refine ⟨hno, by simpa [urlRules, hno] using hrules, hread, hnone, hcommand, hlegible, hlegibleDomains, ?_⟩
  intro url
  have hfaces : m.urls.map UrlRule.face = after.map UrlRule.face := by
    rw [hurls, List.map_map]
    exact map_eq_of_forall₂ (fun _ _ h => h.2) hback
  have halike : Alike { l with defaultUrl := some first.stored, urls := after }
      { l with defaultUrl := m.defaultUrl, urls := m.urls } :=
    ⟨congrArg _ hdefault.symm, hfaces.symm, rfl, rfl⟩
  exact (halike.urlCommand?_eq url).trans (hs.urls url)

/-- If the commands of a ledger make the same ledger again, they are read as they were written, but perhaps for
the first one. -/
theorem Tidy.legible_or_shadowed (h : l.Tidy) (hm : Rebuilds l m) (hs : Same l m) :
    l.Legible ∨ ∃ first rest again, l.Shadowed first rest again := by
  obtain ⟨again, domains, hread, hreadDomains, hdefault, hurls, hdomains⟩ := h.exists_rules hm hs.commands
  have hcommands := hs.commands
  simp only [commands, urlRules, hdefault, hurls, hdomains, ← List.map_append, List.map_map] at hcommands
  obtain ⟨hcommandsUrls, hcommandsDomains⟩ := List.append_inj' hcommands (by
    simp [hreadDomains.length_eq])
  have hlegibleDomains := h.legible_domains hreadDomains hcommandsDomains
  cases again with
  | nil =>
    refine .inl ⟨fun rule hrule => ?_, hlegibleDomains⟩
    rw [List.forall₂_nil_right_iff.mp hread] at hrule
    cases hrule
  | cons first again =>
    have hone : ((first :: again).filter fun rule => rule.target.isNone).length ≤ 1 := by
      have hlength := congrArg List.length hdefault
      rw [List.length_map] at hlength
      rw [← hlength]
      cases m.defaultUrl <;> simp
    have htargeted := h.targeted_tail hread hone hcommandsUrls
    obtain ⟨hnone, hsome⟩ := filter_of_targeted htargeted
    have horder : ((first :: again).filter fun rule => rule.target.isNone) ++
        ((first :: again).filter fun rule => rule.target.isSome) = first :: again := by
      cases ht : first.target <;> simp [ht, hnone, hsome]
    obtain ⟨before, after, hbefore, hafter, hrules⟩ := List.forall₂_cons_right_iff.mp hread
    have hcommandsAll : (first :: again).map (fun rule => rule.stored.command) =
        (before :: after).map UrlRule.command := by
      rw [← horder, ← hrules]
      exact hcommandsUrls
    obtain ⟨hcommand, hcommandsAfter⟩ := List.cons.inj hcommandsAll
    have hback := readsBack_of_targeted hafter htargeted hcommandsAfter
    have hmem : ∀ rule ∈ before :: after, rule ∈ l.urlRules := fun rule hrule => by rwa [hrules]
    have hlegible : ∀ rule ∈ after, rule.Legible := by
      intro rule hrule
      obtain ⟨read, -, hread⟩ := Text.exists_of_forall₂ hback rule hrule
      exact (h.legible_url_iff (hmem rule (List.mem_cons_of_mem _ hrule))).mpr ⟨read, hread⟩
    rcases hbefore.2.2 with ⟨htarget, -⟩ | ⟨htarget, hlost⟩
    · refine .inl ⟨?_, hlegibleDomains⟩
      rw [hrules]
      exact List.forall_mem_cons.mpr ⟨(h.legible_url_iff (hmem before List.mem_cons_self)).mpr
        ⟨first, hbefore.1, Prod.ext htarget hcommand⟩, hlegible⟩
    · have hfirst : m.defaultUrl = some first.stored := by
        rw [List.filter_cons_of_pos (by simp [htarget]), hnone] at hdefault
        exact Option.toList_eq_singleton_iff.mp hdefault
      have hothers : m.urls = again.map UrlRule.stored := by
        rw [hurls, List.filter_cons_of_neg (by simp [htarget]), hsome]
      exact .inr ⟨before, after, first, h.shadowed hs hrules hbefore.1 htarget hlost hcommand hback hfirst hothers
        hlegible hlegibleDomains⟩

end Ledger

end TrafficPolicy
