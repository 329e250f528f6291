import TrafficPolicy.Proofs.Profile.Candidates
import TrafficPolicy.Proofs.Profile.WellLinked

/-!
# Url policies without links

A slot table keeps the slots of the default and, for each target, the slots that its own commands have filled.
It knows no links: what a slot holds in effect is looked up in the two when it is asked for. A profile shows
for every url what the table shows to which the same commands were applied.
-/

namespace TrafficPolicy

/-- The slots of the default, and those of each target in the order of definition. -/
structure SlotTable where
  default : Option Slots := none
  entries : List (UrlPattern × Slots) := []

namespace SlotTable

/-- The slots of a target after one more rule for it. -/
def mergeSlots (rule : UrlRule) (slots : Slots) : Slots :=
  match rule.mode.getD .set with
  | .set => rule.slots
  | .update => rule.slots.onto slots

def mapEntry (t : SlotTable) (key : String) (f : Slots → Slots) : SlotTable :=
  { t with entries := t.entries.map fun entry => if entry.1.text = key then (entry.1, f entry.2) else entry }

def applyUrl (t : SlotTable) (rule : UrlRule) : SlotTable :=
  match rule.target with
  | none => { t with default := some (mergeSlots rule (t.default.getD {})) }
  | some target =>
    if t.entries.any fun entry => entry.1.text == target.text then
      t.mapEntry target.text (mergeSlots rule)
    else { t with entries := t.entries ++ [(target, rule.slots)] }

def applyRemoval (t : SlotTable) (removal : Removal) : SlotTable :=
  let clear (slots : Slots) : Slots := slots.put removal.slot none
  match removal.target with
  | .all => ⟨t.default.map clear, t.entries.map fun entry => (entry.1, clear entry.2)⟩
  | .named name => (urlKey? name).elim t fun key => t.mapEntry key clear

def applyDeletion (t : SlotTable) (deletion : Deletion) : SlotTable :=
  match deletion.scope, deletion.target with
  | .url, .all => {}
  | .url, .named name =>
    (urlKey? name).elim t fun key =>
      { t with entries := t.entries.filter fun entry => entry.1.text != key }
  | .domain, _ => t

def applyPolicy (t : SlotTable) : Policy → Except CommandError SlotTable
  | .url rule => .ok (t.applyUrl rule)
  | .remove removal => .ok (t.applyRemoval removal)
  | .delete deletion => .ok (t.applyDeletion deletion)
  | .domain _ => .ok t
  | other => .error (.notApplicable other.command)

def follow (t : SlotTable) (registry : Registry) (commands : List String) :
    Except CommandError SlotTable :=
  commands.foldlM (fun t command => registry.read command >>= t.applyPolicy) t

def candidates (t : SlotTable) (url : Url) : List (Specificity × UrlPattern × Slots) :=
  t.entries.filterMap fun entry =>
    if entry.1.coversUrl url then some (entry.1.specificity, entry) else none

/-- The target that counts for a url, if it is not the default, with the slots in effect there. -/
def resolveUrl (t : SlotTable) (url : String) : Option (Option UrlPattern × Slots) :=
  ((firstGreatest? (fun a b => a.1.exceeds b.1) (t.candidates (Url.read url))).map fun best =>
      (some best.2.1, best.2.2.onto (t.default.getD {}))) <|>
    t.default.map fun slots => (none, slots)

end SlotTable

namespace UrlPolicy

def row? (p : UrlPolicy) : Option (UrlPattern × Slots) :=
  p.rule.target.map fun target => (target, p.rule.slots)

@[simp] theorem row?_of_target {p : UrlPolicy} {target : UrlPattern} (h : p.rule.target = some target) :
    p.row? = some (target, p.rule.slots) := by
  simp [row?, h]

@[simp] theorem row?_of_none {p : UrlPolicy} (h : p.rule.target = none) : p.row? = none := by
  simp [row?, h]

/-- What a policy shows: its target, and what its slots hold in effect. -/
def Shows (p : UrlPolicy) (shown : Option UrlPattern × Slots) : Prop :=
  p.rule.target = shown.1 ∧ ∀ s, p.get s = shown.2.get s

private theorem slots_merge (p : UrlPolicy) (rule : UrlRule) :
    (p.merge rule).rule.slots = SlotTable.mergeSlots rule p.rule.slots := by
  unfold merge mapRule UrlRule.update SlotTable.mergeSlots
  cases rule.mode.getD .set <;> rfl

private theorem row?_merge (p : UrlPolicy) (rule : UrlRule) :
    (p.merge rule).row? = p.row?.map fun entry => (entry.1, SlotTable.mergeSlots rule entry.2) := by
  simp only [row?, target_merge, slots_merge, Option.map_map, Function.comp_def]

end UrlPolicy

namespace Profile

variable {p q : Profile}

def slotTable (p : Profile) : SlotTable where
  default := p.defaultUrl.map fun default => default.rule.slots
  entries := p.urls.filterMap UrlPolicy.row?

private theorem entries_map (f : UrlPolicy → UrlPolicy) (g : UrlPattern × Slots → UrlPattern × Slots)
    (h : ∀ url, (f url).row? = url.row?.map g) (urls : List UrlPolicy) :
    (urls.map f).filterMap UrlPolicy.row? = (urls.filterMap UrlPolicy.row?).map g := by
  rw [List.filterMap_map, List.map_filterMap]
  exact congrArg (urls.filterMap ·) (funext h)

private theorem slotTable_mapUrl (p : Profile) (key : String) (f : UrlPolicy → UrlPolicy)
    (g : Slots → Slots) (h : ∀ url, (f url).row? = url.row?.map fun entry => (entry.1, g entry.2)) :
    (p.mapUrl key f).slotTable = p.slotTable.mapEntry key g := by
  simp only [slotTable, mapUrl, SlotTable.mapEntry, SlotTable.mk.injEq, true_and]
  apply entries_map
  intro url
  cases ht : url.rule.target with
  | none => simp [UrlPolicy.target?, ht]
  | some target =>
    by_cases hk : target.text = key
    · simp [UrlPolicy.target?, ht, hk, h]
    · simp [UrlPolicy.target?, ht, hk]

private theorem slotTable_relink (p : Profile) : p.relink.slotTable = p.slotTable := by
  simp only [slotTable, relink, SlotTable.mk.injEq, true_and]
  rw [entries_map _ id (by intro url; simp [UrlPolicy.row?]), List.map_id]

private theorem any_entries (urls : List UrlPolicy) (key : String) :
    ((urls.filterMap UrlPolicy.row?).any fun entry => entry.1.text == key) =
      urls.any fun url => url.target? == some key := by
  induction urls with
  | nil => rfl
  | cons url urls ih =>
    cases ht : url.rule.target with
    | none => simpa [UrlPolicy.target?, ht] using ih
    | some target => simpa [UrlPolicy.target?, ht] using congrArg (target.text == key || ·) ih

private theorem entries_filter (urls : List UrlPolicy) (key : String) :
    (urls.filter fun url => url.target? != some key).filterMap UrlPolicy.row? =
      (urls.filterMap UrlPolicy.row?).filter fun entry => entry.1.text != key := by
  induction urls with
  | nil => rfl
  | cons url urls ih =>
    cases ht : url.rule.target with
    | none => simpa [List.filter_cons, UrlPolicy.target?, ht] using ih
    | some target => by_cases hk : target.text = key <;> simpa [List.filter_cons, UrlPolicy.target?, ht, hk] using ih

theorem slotTable_applyUrl (p : Profile) (rule : UrlRule) :
    (p.applyUrl rule).slotTable = p.slotTable.applyUrl rule := by
  unfold applyUrl SlotTable.applyUrl
  cases ht : rule.target with
  | none =>
    have hr := slotTable_relink { p with defaultUrl := some ((p.defaultUrl.getD ⟨{}, []⟩).merge rule) }
    have hd : (p.defaultUrl.getD ⟨{}, []⟩).rule.slots = p.slotTable.default.getD {} := by
      cases hp : p.defaultUrl <;> simp [slotTable, hp]
    rw [← hd, ← UrlPolicy.slots_merge]
    exact hr
  | some target =>
    have hany : (p.slotTable.entries.any fun entry => entry.1.text == target.text) = p.hasUrl target.text :=
      any_entries p.urls target.text
    dsimp only
    rw [hany]
    by_cases hu : p.hasUrl target.text
    · have hm := slotTable_mapUrl p target.text (fun url => url.merge rule) (SlotTable.mergeSlots rule)
        (fun url => url.row?_merge rule)
      rw [if_pos hu]
      simp only [applyTargeted, hu, if_true]
      exact hm
    · rw [if_neg hu]
      simp [applyTargeted, hu, slotTable, ht]

theorem slotTable_applyRemoval (p : Profile) (removal : Removal) :
    (p.applyRemoval removal).slotTable = p.slotTable.applyRemoval removal := by
  let trim (url : UrlPolicy) : UrlPolicy := url.mapRule fun rule => rule.remove removal.slot
  have htrim (url : UrlPolicy) : (trim url).row? =
      url.row?.map fun entry => (entry.1, entry.2.put removal.slot none) := by
    simp only [UrlPolicy.row?, trim, UrlPolicy.mapRule, UrlRule.remove, Option.map_map,
      Function.comp_def]
  unfold applyRemoval SlotTable.applyRemoval
  cases removal.target with
  | all =>
    refine (slotTable_relink { p with
      defaultUrl := p.defaultUrl.map trim, urls := p.urls.map trim }).trans ?_
    simp only [slotTable, entries_map trim _ htrim, Option.map_map]
    rfl
  | named name =>
    dsimp only
    cases hk : urlKey? name with
    | none => rfl
    | some key => exact slotTable_mapUrl p key trim (fun slots => slots.put removal.slot none) htrim

theorem slotTable_applyDeletion (p : Profile) (deletion : Deletion) :
    (p.applyDeletion deletion).slotTable = p.slotTable.applyDeletion deletion := by
  obtain ⟨scope, target⟩ := deletion
  cases scope with
  | domain => cases target <;> rfl
  | url =>
    cases target with
    | all => rfl
    | named name =>
      simp only [applyDeletion, SlotTable.applyDeletion]
      cases urlKey? name with
      | none => rfl
      | some key => simp [slotTable, entries_filter]

theorem slotTable_applyDomain (p : Profile) (shuffler : Shuffler) (rule : DomainRule) :
    (p.applyDomain shuffler rule).slotTable = p.slotTable := by
  unfold applyDomain
  split
  · rfl
  · split <;> rfl

theorem slotTable_applyPolicy {shuffler : Shuffler} {policy : Policy}
    (h : p.applyPolicy shuffler policy = .ok q) : p.slotTable.applyPolicy policy = .ok q.slotTable := by
  unfold applyPolicy at h
  split at h <;> cases h
  · exact congrArg Except.ok (slotTable_applyUrl p _).symm
  · exact congrArg Except.ok (slotTable_applyRemoval p _).symm
  · exact congrArg Except.ok (slotTable_applyDeletion p _).symm
  · exact congrArg Except.ok (slotTable_applyDomain p shuffler _).symm

/-- The same commands give the table of the profile that they give. -/
theorem slotTable_follow {registry : Registry} {history : History}
    (h : p.follow registry history = .ok q) :
    p.slotTable.follow registry (history.map Prod.snd) = .ok q.slotTable := by
  induction history generalizing p with
  | nil =>
    cases h
    rfl
  | cons entry history ih =>
    obtain ⟨next, hfirst, hrest⟩ := follow_cons_eq_ok_iff.mp h
    obtain ⟨policy, hread, happly⟩ := apply_eq_ok_iff.mp hfirst
    have hnext := slotTable_applyPolicy happly
    simp only [SlotTable.follow, List.map_cons, List.foldlM_cons, hread, bind, Except.bind, hnext]
    exact ih hrest

/-! ## What the slots hold in effect -/

/-- A slot without an occupant of its own shows that of the current default. -/
theorem WellLinked.get_of_mem (h : p.WellLinked) {url : UrlPolicy} (hu : url ∈ p.urls) (s : Slot) :
    url.get s = (url.rule.slots.get s <|> (p.slotTable.default.getD {}).get s) := by
  simp only [UrlPolicy.get, UrlPolicy.chain, h.linked url hu, h.inherited_eq, slotTable]
  cases hs : url.rule.slots.get s with
  | some own => rw [List.findSome?_cons_of_isSome (by simp [hs]), hs]; rfl
  | none =>
    rw [List.findSome?_cons_of_isNone (by simp [hs])]
    cases p.defaultUrl with
    | none => exact (Slots.get_empty s).symm
    | some default =>
      simp only [Option.map_some, Option.toList_some, Option.getD_some, List.findSome?_singleton]
      rfl

theorem WellLinked.get_of_default (h : p.WellLinked) {default : UrlPolicy}
    (hd : p.defaultUrl = some default) (s : Slot) : default.get s = default.rule.slots.get s := by
  simp only [UrlPolicy.get, UrlPolicy.chain, h.default_alone default hd, List.findSome?_cons,
    List.findSome?_nil]
  cases default.rule.slots.get s <;> rfl

private theorem WellLinked.default_rel (h : p.WellLinked) :
    Option.Rel UrlPolicy.Shows p.defaultUrl (p.slotTable.default.map fun slots => (none, slots)) := by
  unfold slotTable
  cases hd : p.defaultUrl with
  | none => exact .none
  | some default => exact .some ⟨h.default_target default hd, h.get_of_default hd⟩

private theorem WellLinked.entries_rel (h : p.WellLinked) :
    List.Forall₂ (fun url entry => url ∈ p.urls ∧ url.row? = some entry) p.urls
      p.slotTable.entries := by
  have hsub : ∀ urls, urls ⊆ p.urls → List.Forall₂ (fun url entry => url ∈ p.urls ∧
      url.row? = some entry) urls (urls.filterMap UrlPolicy.row?) := by
    intro urls hsub
    induction urls with
    | nil => exact .nil
    | cons url urls ih =>
      obtain ⟨target, ht⟩ := Option.isSome_iff_exists.mp (h.targeted url (hsub List.mem_cons_self))
      have he : url.row? = some (target, url.rule.slots) := by simp [UrlPolicy.row?, ht]
      rw [List.filterMap_cons_some he]
      exact .cons ⟨hsub List.mem_cons_self, he⟩ (ih fun u hu => hsub (List.mem_cons_of_mem _ hu))
  exact hsub p.urls (List.Subset.refl _)

/-- The table shows for every url what the profile shows. -/
theorem WellLinked.resolveUrl_rel (h : p.WellLinked) (url : String) :
    Option.Rel UrlPolicy.Shows (p.resolveUrl url) (p.slotTable.resolveUrl url) := by
  have hcandidates : List.Forall₂ (fun a b => a.1 = b.1 ∧ a.2 ∈ p.urls ∧ a.2.row? = some b.2)
      (p.urlCandidates (Url.read url)) (p.slotTable.candidates (Url.read url)) := by
    refine List.rel_filterMap (fun policy entry hrel => ?_) h.entries_rel
    obtain ⟨hmem, he⟩ := hrel
    obtain ⟨target, ht, rfl⟩ := Option.map_eq_some_iff.mp he
    simp only [ht, Option.bind_some]
    split
    · exact .some ⟨rfl, hmem, he⟩
    · exact .none
  have hbest := firstGreatest?_rel (f := fun a b => a.1.exceeds b.1) (g := fun a b => a.1.exceeds b.1)
    (by rintro a a' b b' ⟨hab, _⟩ ⟨hab', _⟩; rw [hab, hab']) hcandidates
  unfold resolveUrl SlotTable.resolveUrl
  revert hbest
  generalize firstGreatest? _ (p.urlCandidates (Url.read url)) = best
  generalize firstGreatest? _ (p.slotTable.candidates (Url.read url)) = best'
  rintro (hrel | _)
  · obtain ⟨-, hmem, he⟩ := hrel
    obtain ⟨target, ht, hbest⟩ := Option.map_eq_some_iff.mp he
    simp only [Option.map_some, ← hbest]
    refine .some ⟨ht, fun s => ?_⟩
    rw [h.get_of_mem hmem, Slots.get_onto]
  · exact h.default_rel

end Profile

end TrafficPolicy
