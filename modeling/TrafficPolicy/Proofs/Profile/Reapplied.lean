import TrafficPolicy.Proofs.Profile.Placement

/-!
# Commands that are applied again

A command that a profile has accepted is accepted again, and the second time it does nothing to the rules. The links of
the url policies follow from the rules, so the same policy counts for every url.
-/

namespace TrafficPolicy

/-! ## What is done twice -/

section Twice

variable {α κ : Type} [DecidableEq κ] {key : α → Option κ} {place : Option κ} {change : α → α} {fresh : α}
  {items : List α}

private theorem map_twice (hkey : ∀ item, key item = place → key (change item) = place)
    (htwice : ∀ item, change (change item) = change item) :
    ((items.map fun item => if key item = place then change item else item).map fun item =>
        if key item = place then change item else item) =
      items.map fun item => if key item = place then change item else item := by
  rw [List.map_map]
  refine List.map_congr_left fun item _ => ?_
  by_cases hitem : key item = place
  · simp only [Function.comp_apply, hitem, if_true, hkey item hitem, htwice]
  · simp only [Function.comp_apply, hitem, if_false]

/-- A definition that changes neither what it has changed nor what it has added is in place the second time. -/
theorem placed_twice (hkey : ∀ item, key item = place → key (change item) = place)
    (htwice : ∀ item, change (change item) = change item) (hfresh : key fresh = place) (hadded : change fresh = fresh) :
    placed key place change fresh (placed key place change fresh items) = placed key place change fresh items := by
  by_cases hmem : place ∈ items.map key
  · have hplaced : placed key place change fresh items =
        items.map fun item => if key item = place then change item else item := if_pos hmem
    have hmem' : place ∈ (placed key place change fresh items).map key := by
      obtain ⟨item, hitem, hplace⟩ := List.mem_map.mp hmem
      rw [hplaced]
      exact List.mem_map.mpr ⟨_, List.mem_map_of_mem hitem, by rw [if_pos hplace, hkey item hplace]⟩
    rw [placed, if_pos hmem', hplaced, map_twice hkey htwice]
  · have hplaced : placed key place change fresh items = items ++ [fresh] := if_neg hmem
    have hmem' : place ∈ (placed key place change fresh items).map key := by
      rw [hplaced]
      exact List.mem_map.mpr ⟨fresh, by simp, hfresh⟩
    -- Only what has been added has the key.
    have hold : items.map (fun item => if key item = place then change item else item) = items :=
      (List.map_congr_left fun item hitem => if_neg fun hplace => hmem (List.mem_map.mpr ⟨item, hitem, hplace⟩)).trans
        (List.map_id' items)
    rw [placed, if_pos hmem', hplaced, List.map_append, hold, List.map_singleton, if_pos hfresh, hadded]

end Twice

namespace UrlRule

theorem stored_update_twice (rule later : UrlRule) :
    ((rule.update later).stored.update later).stored = (rule.update later).stored := by
  unfold update
  cases later.mode.getD .set with
  | set => rfl
  | update =>
    refine congrArg (fun slots => UrlRule.stored { rule with slots }) (Slots.ext_get fun s => ?_)
    simp only [stored, Slots.get_onto]
    cases later.slots.get s <;> rfl

theorem stored_update_self (rule : UrlRule) : (rule.stored.update rule).stored = rule.stored := by
  unfold update
  cases rule.mode.getD .set with
  | set => rfl
  | update =>
    refine congrArg (fun slots => UrlRule.stored { rule with slots }) (Slots.ext_get fun s => ?_)
    simp only [stored, Slots.get_onto]
    cases rule.slots.get s <;> rfl

theorem remove_twice (rule : UrlRule) (s : Slot) : (rule.remove s).remove s = rule.remove s := by
  refine congrArg (fun slots => { rule with slots }) (Slots.ext_get fun t => ?_)
  by_cases hts : t = s
  · subst hts
    rw [remove, Slots.get_put_self, Slots.get_put_self]
  · exact Slots.get_put_of_ne _ _ hts

end UrlRule

namespace Ledger

variable {l m : Ledger}

theorem applyUrl_twice (l : Ledger) (rule : UrlRule) : (l.applyUrl rule).applyUrl rule = l.applyUrl rule := by
  cases ht : rule.target with
  | none =>
    unfold applyUrl
    simp only [ht, Option.getD_some, UrlRule.stored_update_twice]
  | some target =>
    have hkey : ∀ old : UrlRule, old.target? = some target.text → (old.update rule).stored.target? = some target.text :=
      fun old hold => (UrlRule.target?_stored_update old rule).trans hold
    have hfresh : rule.stored.target? = some target.text := congrArg (Option.map UrlPattern.text) ht
    simp only [applyUrl_of_target ht,
      placed_twice hkey (fun old => UrlRule.stored_update_twice old rule) hfresh (UrlRule.stored_update_self rule)]

theorem applyRemoval_twice (l : Ledger) (removal : Removal) :
    (l.applyRemoval removal).applyRemoval removal = l.applyRemoval removal := by
  obtain ⟨_, slot, target, _⟩ := removal
  cases target with
  | all => simp only [applyRemoval, List.map_map, Option.map_map, Function.comp_def, UrlRule.remove_twice]
  | named name =>
    simp only [applyRemoval]
    cases urlKey? name with
    | none => rfl
    | some key =>
      have htwice := @map_twice _ _ _ UrlRule.target? (some key) (fun rule => rule.remove slot) l.urls
        (fun old hold => hold) fun old => UrlRule.remove_twice old slot
      simp only [Option.elim_some, mapUrl, htwice]

theorem applyDeletion_twice (l : Ledger) (deletion : Deletion) :
    (l.applyDeletion deletion).applyDeletion deletion = l.applyDeletion deletion := by
  obtain ⟨scope, target⟩ := deletion
  cases scope with
  | url =>
    cases target with
    | all => rfl
    | named name =>
      simp only [applyDeletion]
      cases urlKey? name with
      | none => rfl
      | some key => simp only [Option.elim_some, List.filter_filter, Bool.and_self]
  | domain =>
    cases target with
    | all => rfl
    | named name => simp only [applyDeletion, List.filter_filter, Bool.and_self]

theorem applyDomain_of_pattern {rule : DomainRule} {pattern : DomainPattern} (h : rule.target = .pattern pattern)
    (l : Ledger) : l.applyDomain rule =
      { l with
        domains := placed (some ∘ DomainRule.key) (some pattern.name) (fun _ => rule) rule l.domains } := by
  unfold applyDomain placed
  simp only [h, List.any_eq_true, beq_iff_eq, List.mem_map, Function.comp_apply, Option.some.injEq]
  split <;> rfl

theorem applyDomain_twice (l : Ledger) (rule : DomainRule) :
    (l.applyDomain rule).applyDomain rule = l.applyDomain rule := by
  cases ht : rule.target with
  | all =>
    unfold applyDomain
    simp only [ht]
  | pattern pattern =>
    have hkey : (some ∘ DomainRule.key) rule = some pattern.name := congrArg some (DomainRule.key_of_pattern ht)
    have htwice : ∀ domains, placed (some ∘ DomainRule.key) (some pattern.name) (fun _ => rule) rule
        (placed (some ∘ DomainRule.key) (some pattern.name) (fun _ => rule) rule domains) =
        placed (some ∘ DomainRule.key) (some pattern.name) (fun _ => rule) rule domains := fun domains =>
      placed_twice (fun _ _ => hkey) (fun _ => rfl) hkey rfl
    simp only [applyDomain_of_pattern ht, htwice]

/-- A policy that is applied again is accepted again and changes nothing. -/
theorem applyPolicy_twice {policy : Policy} (h : l.applyPolicy policy = .ok m) : m.applyPolicy policy = .ok m := by
  cases policy with
  | url rule =>
    obtain rfl := Except.ok.inj h
    exact congrArg Except.ok (applyUrl_twice l rule)
  | remove removal =>
    obtain rfl := Except.ok.inj h
    exact congrArg Except.ok (applyRemoval_twice l removal)
  | delete deletion =>
    obtain rfl := Except.ok.inj h
    exact congrArg Except.ok (applyDeletion_twice l deletion)
  | domain rule =>
    obtain rfl := Except.ok.inj h
    exact congrArg Except.ok (applyDomain_twice l rule)
  | _ => cases h

end Ledger

namespace Profile

variable {registry : Registry} {p q : Profile} {shuffler : Shuffler} {command : String}

/-! ## Links -/

theorem WellLinked.defaultUrl_eq (h : p.WellLinked) :
    p.defaultUrl = p.ledger.defaultUrl.map fun rule => ⟨rule, []⟩ := by
  cases hdefault : p.defaultUrl with
  | none => rw [ledger, hdefault]; rfl
  | some default =>
    rw [ledger, hdefault, Option.map_some, Option.map_some, ← h.default_alone default hdefault]

theorem WellLinked.urls_eq (h : p.WellLinked) :
    p.urls = p.ledger.urls.map fun rule => ⟨rule, p.ledger.defaultUrl.toList⟩ := by
  have hself : ∀ url ∈ p.urls, (⟨url.rule, p.ledger.defaultUrl.toList⟩ : UrlPolicy) = url := fun url hurl => by
    rw [ledger, ← h.inherited_eq, ← h.linked url hurl]
  rw [ledger, List.map_map]
  exact ((List.map_congr_left hself).trans (List.map_id' p.urls)).symm

/-- The rules say which policy counts for a url, and what is in effect there. -/
theorem WellLinked.resolveUrl_congr (hp : p.WellLinked) (hq : q.WellLinked) (h : p.ledger = q.ledger) (url : String) :
    p.resolveUrl url = q.resolveUrl url := by
  have hdefault : p.defaultUrl = q.defaultUrl := by rw [hp.defaultUrl_eq, hq.defaultUrl_eq, h]
  have hurls : p.urls = q.urls := by rw [hp.urls_eq, hq.urls_eq, h]
  unfold resolveUrl urlCandidates
  rw [hdefault, hurls]

/-- A command that has been accepted is accepted again, however its addresses are shuffled. The commands of the profile
and the policy that counts for a url are the same as before. -/
theorem Reachable.apply_twice (h : Reachable registry p) (shuffler' : Shuffler)
    (hq : p.apply registry shuffler command = .ok q) : ∃ r, q.apply registry shuffler' command = .ok r ∧
      r.commands = q.commands ∧ ∀ url, r.resolveUrl url = q.resolveUrl url := by
  obtain ⟨policy, hread, happly⟩ := apply_eq_ok_iff.mp hq
  have honce := ledger_applyPolicy p shuffler policy
  rw [happly] at honce
  have htwice := ledger_applyPolicy q shuffler' policy
  rw [Ledger.applyPolicy_twice honce.symm] at htwice
  cases hagain : q.applyPolicy shuffler' policy with
  | error e =>
    rw [hagain] at htwice
    cases htwice
  | ok r =>
    rw [hagain] at htwice
    have hledger : r.ledger = q.ledger := Except.ok.inj htwice
    have happlied : q.apply registry shuffler' command = .ok r := apply_eq_ok_iff.mpr ⟨policy, hread, hagain⟩
    have hreached : Reachable registry q := h.apply shuffler hq
    refine ⟨r, happlied, ?_, ?_⟩
    · rw [← commands_ledger, ← commands_ledger, hledger]
    · exact (hreached.apply shuffler' happlied).wellLinked.resolveUrl_congr hreached.wellLinked hledger

/-- The default is updated before there is one. The first time it is defined, the second time it is merged with. -/
theorem Reachable.apply_twice_default : ∃ q r, Profile.apply {} .standard .inOrder "url update cache" = .ok q ∧
    q.apply .standard .inOrder "url update cache" = .ok r ∧ q.commands = ["url cache"] ∧
      r.commands = ["url cache"] := by
  let rule : UrlRule := { mode := some .update, slots := { content := some .cache } }
  have hread : Registry.standard.read "url update cache" = .ok (.url rule) := by
    have hw : Text.words "url update cache" = ["url", "update", "cache"] := by decide
    have hupdate : Registry.standard.builder? "update" = some (.leaf (.marker .update)) :=
      Registry.builder?_standard_iff.mpr (.marker .update)
    have hcache : Registry.standard.builder? "cache" = some (.leaf (.marker .cache)) :=
      Registry.builder?_standard_iff.mpr (.marker .cache)
    rw [Registry.read_eq_ok_iff, hw, Registry.builds_url Registry.builder?_url,
      Registry.reads_urlRule (by decide) (by decide)]
    refine ⟨rule, [], ?_, UrlRule.reads_readTarget.mpr ⟨rfl, .inl ⟨rfl, rfl⟩⟩⟩
    refine (Registry.reads_urlParts_part (by decide)).mpr
      ⟨_, ["cache"], _, (Registry.builds_leaf hupdate).mpr ⟨rfl, rfl⟩, rfl, ?_⟩
    refine (Registry.reads_urlParts_part (by decide)).mpr
      ⟨_, [], _, (Registry.builds_leaf hcache).mpr ⟨rfl, rfl⟩, rfl, ?_⟩
    exact Registry.reads_urlParts_nil.mpr ⟨rfl, rfl⟩
  have hfirst : Profile.apply {} .standard .inOrder "url update cache" = .ok (applyUrl {} rule) :=
    apply_eq_ok_iff.mpr ⟨_, hread, rfl⟩
  obtain ⟨r, hsecond, hcommands, -⟩ := Reachable.fresh.apply_twice .inOrder hfirst
  have hq : (applyUrl {} rule).commands = ["url cache"] := by decide
  exact ⟨_, r, hfirst, hsecond, hq, hcommands.trans hq⟩

end Profile

end TrafficPolicy
