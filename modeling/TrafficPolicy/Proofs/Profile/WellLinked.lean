import TrafficPolicy.Profile.Resolve

/-!
# What every command keeps of the url policies

Each url policy carries a copy of the default that it inherits from. A profile is well linked if all these
copies are the default that counts now, every target has one policy, and no mode is stored. A fresh profile is
well linked, and every command keeps it so.
-/

namespace TrafficPolicy

/-- Commands in the order in which they are applied, each with the way addresses are shuffled for it. -/
abbrev History := List (Shuffler × String)

namespace UrlPolicy

@[simp] theorem rule_link (p : UrlPolicy) (default? : Option UrlPolicy) :
    (p.link default?).rule = p.rule := rfl

@[simp] theorem target?_link (p : UrlPolicy) (default? : Option UrlPolicy) :
    (p.link default?).target? = p.target? := rfl

@[simp] theorem target_merge (p : UrlPolicy) (later : UrlRule) :
    (p.merge later).rule.target = p.rule.target := by
  simp only [merge, mapRule, UrlRule.update]
  split <;> rfl

@[simp] theorem mode_merge (p : UrlPolicy) (later : UrlRule) :
    (p.merge later).rule.mode = none := rfl

@[simp] theorem defaults_merge (p : UrlPolicy) (later : UrlRule) :
    (p.merge later).defaults = p.defaults := rfl

end UrlPolicy

namespace Profile

/-- Follows a history. A command that is refused ends it. -/
def follow (p : Profile) (registry : Registry) (history : History) : Except CommandError Profile :=
  history.foldlM (fun p entry => p.apply registry entry.1 entry.2) p

def inherited (p : Profile) : List UrlRule :=
  (p.defaultUrl.map UrlPolicy.chain).getD []

structure WellLinked (p : Profile) : Prop where
  targeted : ∀ url ∈ p.urls, url.rule.target.isSome
  distinct : (p.urls.map UrlPolicy.target?).Nodup
  unmoded : ∀ url ∈ p.urlPolicies, url.rule.mode = none
  default_target : ∀ default ∈ p.defaultUrl, default.rule.target = none
  default_alone : ∀ default ∈ p.defaultUrl, default.defaults = []
  linked : ∀ url ∈ p.urls, url.defaults = p.inherited

variable {p q : Profile}

theorem apply_eq_ok_iff {registry : Registry} {shuffler : Shuffler} {command : String} :
    p.apply registry shuffler command = .ok q ↔
      ∃ policy, registry.read command = .ok policy ∧ p.applyPolicy shuffler policy = .ok q := by
  unfold apply
  cases registry.read command <;> simp [bind, Except.bind]

theorem follow_cons_eq_ok_iff {registry : Registry} {shuffler : Shuffler} {command : String}
    {history : History} : p.follow registry ((shuffler, command) :: history) = .ok q ↔
      ∃ next, p.apply registry shuffler command = .ok next ∧ next.follow registry history = .ok q := by
  simp only [follow, List.foldlM_cons]
  cases p.apply registry shuffler command <;> simp [bind, Except.bind]

/-- What each accepted command keeps, a whole history keeps. -/
theorem follow_induct {registry : Registry} {I : Profile → Prop}
    (step : ∀ {p q : Profile} {command : String} {shuffler : Shuffler} {policy : Policy}, I p →
      registry.read command = .ok policy → p.applyPolicy shuffler policy = .ok q → I q)
    {history : History} (hp : I p) (h : p.follow registry history = .ok q) : I q := by
  induction history generalizing p with
  | nil =>
    cases h
    exact hp
  | cons entry history ih =>
    obtain ⟨next, hfirst, hrest⟩ := follow_cons_eq_ok_iff.mp h
    obtain ⟨policy, hread, happly⟩ := apply_eq_ok_iff.mp hfirst
    exact ih (step hp hread happly) hrest

theorem wellLinked_fresh : WellLinked {} := by
  constructor <;> simp [urlPolicies]

theorem hasUrl_iff {target : String} :
    p.hasUrl target ↔ some target ∈ p.urls.map UrlPolicy.target? := by
  simp only [hasUrl, List.any_eq_true, List.mem_map, beq_iff_eq]

/-- Changing policies in place keeps the links if targets and links stay and no mode is set. -/
private theorem WellLinked.map_urls (h : p.WellLinked) (f : UrlPolicy → UrlPolicy)
    (htarget : ∀ url, (f url).rule.target = url.rule.target)
    (hmode : ∀ url, url.rule.mode = none → (f url).rule.mode = none)
    (hdefaults : ∀ url, (f url).defaults = url.defaults) :
    WellLinked { p with urls := p.urls.map f } where
  targeted := by
    intro url hu
    obtain ⟨old, hold, rfl⟩ := List.mem_map.mp hu
    rw [htarget]
    exact h.targeted old hold
  distinct := by
    have hmap : (p.urls.map f).map UrlPolicy.target? = p.urls.map UrlPolicy.target? := by
      rw [List.map_map]
      exact List.map_congr_left fun url _ => by simp [UrlPolicy.target?, htarget]
    rw [hmap]
    exact h.distinct
  unmoded := by
    intro url hu
    rcases List.mem_append.mp hu with hd | hu
    · exact h.unmoded url (List.mem_append_left _ hd)
    · obtain ⟨old, hold, rfl⟩ := List.mem_map.mp hu
      exact hmode old (h.unmoded old (List.mem_append_right _ hold))
  default_target := h.default_target
  default_alone := h.default_alone
  linked := by
    intro url hu
    obtain ⟨old, hold, rfl⟩ := List.mem_map.mp hu
    rw [hdefaults]
    exact h.linked old hold

/-- Relinking makes up for a new default, whatever the policies were linked to before. -/
private theorem WellLinked.relink (h : p.WellLinked) (default? : Option UrlPolicy)
    (htarget : ∀ default ∈ default?, default.rule.target = none)
    (halone : ∀ default ∈ default?, default.defaults = [])
    (hmode : ∀ default ∈ default?, default.rule.mode = none) :
    WellLinked (relink { p with defaultUrl := default? }) where
  targeted := by
    intro url hu
    obtain ⟨old, hold, rfl⟩ := List.mem_map.mp hu
    exact h.targeted old hold
  distinct := by
    have hmap : (p.urls.map fun url => url.link default?).map UrlPolicy.target? =
        p.urls.map UrlPolicy.target? := by simp [Function.comp_def]
    simp only [Profile.relink, hmap]
    exact h.distinct
  unmoded := by
    intro url hu
    rcases List.mem_append.mp hu with hd | hu
    · exact hmode url (Option.mem_toList.mp hd)
    · obtain ⟨old, hold, rfl⟩ := List.mem_map.mp hu
      exact h.unmoded old (List.mem_append_right _ hold)
  default_target := htarget
  default_alone := halone
  linked := by
    intro url hu
    obtain ⟨old, hold, rfl⟩ := List.mem_map.mp hu
    rfl

private theorem WellLinked.applyDefault (h : p.WellLinked) (rule : UrlRule) :
    (p.applyDefault rule).WellLinked := by
  have hr := h.relink (some ((p.defaultUrl.getD ⟨{}, []⟩).merge rule)) (by
    intro default hd
    obtain rfl := Option.some.inj hd
    cases hp : p.defaultUrl with
    | none => simp
    | some old => simpa using h.default_target old hp) (by
    intro default hd
    obtain rfl := Option.some.inj hd
    cases hp : p.defaultUrl with
    | none => simp
    | some old => simpa using h.default_alone old hp) (by
    intro default hd
    obtain rfl := Option.some.inj hd
    rfl)
  exact { hr with }

private theorem WellLinked.applyTargeted (h : p.WellLinked) {rule : UrlRule} {target : UrlPattern}
    (ht : rule.target = some target) : (p.applyTargeted rule target.text).WellLinked := by
  by_cases hu : p.hasUrl target.text
  · have hm := h.map_urls (fun url => if url.target? = some target.text then url.merge rule else url)
      (by intro url; split <;> simp) (by intro url _; split <;> simp_all)
      (by intro url; split <;> simp)
    simp only [Profile.applyTargeted, hu, if_true]
    exact { hm with }
  · simp only [Profile.applyTargeted, hu]
    refine ⟨?_, ?_, ?_, h.default_target, h.default_alone, ?_⟩
    · intro url hmem
      rcases List.mem_append.mp hmem with hold | hnew
      · exact h.targeted url hold
      · obtain rfl := List.mem_singleton.mp hnew
        simp [ht]
    · have hfresh : some target.text ∉ p.urls.map UrlPolicy.target? := fun hmem => hu (hasUrl_iff.mpr hmem)
      simp only [Bool.false_eq_true, if_false, List.map_append, List.map_cons, List.map_nil]
      refine List.nodup_append.mpr ⟨h.distinct, by simp, ?_⟩
      rintro a ha b hb rfl
      obtain rfl := List.mem_singleton.mp hb
      simp only [UrlPolicy.target?, UrlPolicy.rule_link, ht] at ha
      exact hfresh ha
    · intro url hmem
      rcases List.mem_append.mp hmem with hd | hmem
      · exact h.unmoded url (List.mem_append_left _ hd)
      · rcases List.mem_append.mp hmem with hold | hnew
        · exact h.unmoded url (List.mem_append_right _ hold)
        · obtain rfl := List.mem_singleton.mp hnew
          rfl
    · intro url hmem
      rcases List.mem_append.mp hmem with hold | hnew
      · exact h.linked url hold
      · obtain rfl := List.mem_singleton.mp hnew
        rfl

theorem wellLinked_applyUrl (h : p.WellLinked) (rule : UrlRule) : (p.applyUrl rule).WellLinked := by
  unfold applyUrl
  split
  · exact h.applyDefault rule
  · rename_i target ht
    exact h.applyTargeted ht

theorem wellLinked_applyRemoval (h : p.WellLinked) (removal : Removal) :
    (p.applyRemoval removal).WellLinked := by
  let trim (url : UrlPolicy) : UrlPolicy := url.mapRule fun rule => rule.remove removal.slot
  unfold applyRemoval
  cases removal.target with
  | all =>
    have hm := h.map_urls trim (fun _ => rfl) (fun _ hmode => hmode) (fun _ => rfl)
    refine hm.relink (p.defaultUrl.map trim) ?_ ?_ ?_
    all_goals
      intro default hd
      obtain ⟨old, hold, rfl⟩ := Option.map_eq_some_iff.mp hd
    · exact h.default_target old hold
    · exact h.default_alone old hold
    · exact h.unmoded old (List.mem_append_left _ (Option.mem_toList.mpr hold))
  | named name =>
    dsimp only
    split
    · exact h
    · rename_i key _
      exact h.map_urls (fun url => if url.target? = some key then trim url else url)
        (by intro url; split <;> rfl) (by intro url hmode; split <;> exact hmode)
        (by intro url; split <;> rfl)

theorem wellLinked_applyDeletion (h : p.WellLinked) (deletion : Deletion) :
    (p.applyDeletion deletion).WellLinked := by
  unfold applyDeletion
  split
  · constructor <;> simp [urlPolicies]
  · split
    · exact h
    · rename_i key _
      have hsub := List.filter_sublist (p := fun url => UrlPolicy.target? url != some key) (l := p.urls)
      refine ⟨fun url hu => h.targeted url (hsub.subset hu), h.distinct.sublist (hsub.map _), ?_,
        h.default_target, h.default_alone, fun url hu => h.linked url (hsub.subset hu)⟩
      intro url hu
      rcases List.mem_append.mp hu with hd | hu
      · exact h.unmoded url (List.mem_append_left _ hd)
      · exact h.unmoded url (List.mem_append_right _ (hsub.subset hu))
  · exact { h with }
  · exact { h with }

theorem wellLinked_applyDomain (h : p.WellLinked) (shuffler : Shuffler) (rule : DomainRule) :
    (p.applyDomain shuffler rule).WellLinked := by
  unfold applyDomain
  split
  · exact { h with }
  · split <;> exact { h with }

theorem wellLinked_applyPolicy (h : p.WellLinked) {shuffler : Shuffler} {policy : Policy}
    (hq : p.applyPolicy shuffler policy = .ok q) : q.WellLinked := by
  unfold applyPolicy at hq
  split at hq <;> cases hq
  · exact wellLinked_applyUrl h _
  · exact wellLinked_applyRemoval h _
  · exact wellLinked_applyDeletion h _
  · exact wellLinked_applyDomain h _ _

theorem wellLinked_follow {registry : Registry} {history : History} (h : p.WellLinked)
    (hq : p.follow registry history = .ok q) : q.WellLinked :=
  follow_induct (fun hp _ happly => wellLinked_applyPolicy hp happly) h hq

theorem WellLinked.inherited_eq (h : p.WellLinked) :
    p.inherited = (p.defaultUrl.map UrlPolicy.rule).toList := by
  cases hd : p.defaultUrl with
  | none => simp [inherited, hd]
  | some default => simp [inherited, hd, UrlPolicy.chain, h.default_alone default hd]

end Profile

end TrafficPolicy
