import TrafficPolicy.Proofs.Grammar.DomainRule
import TrafficPolicy.Proofs.Profile.Ledger

/-!
# What every history keeps of the rules

All rules of a profile can be written, each target has one rule, and the rule for everything is kept apart from
those with a target.
-/

namespace TrafficPolicy

variable {policy : Policy}

def Policy.Sound : Policy → Prop
  | .url rule => rule.Sound
  | .domain rule => rule.Sound
  | _ => True

theorem Registry.sound_of_read {command : String} (h : standard.read command = .ok policy) : policy.Sound := by
  have hplain : ∀ word ∈ Text.words command, Text.Plain word := fun word => Text.plain_of_mem_words
  rcases builds_standard hplain (read_eq_ok_iff.mp h) with he | ⟨arguments, hwords, h⟩ | ⟨arguments, hwords, h⟩
  · cases policy with
    | url rule => cases he
    | domain rule => cases he
    | _ => trivial
  · have hplain : ∀ word ∈ arguments, Text.Plain word :=
      fun word hword => hplain word (hwords ▸ List.mem_cons_of_mem _ hword)
    rcases UrlRule.cases_of_reads_buildUrl hplain h with ⟨removal, rfl⟩ | ⟨deletion, rfl⟩ | ⟨rule, rfl, hrule⟩
    · trivial
    · trivial
    · exact hrule
  · have hplain : ∀ word ∈ arguments, Text.Plain word :=
      fun word hword => hplain word (hwords ▸ List.mem_cons_of_mem _ hword)
    rcases DomainRule.cases_of_reads_buildDomain hplain h with ⟨deletion, rfl⟩ | ⟨rule, rfl, hrule⟩
    · trivial
    · exact hrule

namespace UrlRule

variable {rule later : UrlRule}

theorem Sound.stored (h : rule.Sound) : rule.stored.Sound := ⟨h.slots, h.target⟩

theorem Sound.update (h : rule.Sound) (hlater : later.Sound) : (rule.update later).Sound := by
  refine ⟨forall_update h.slots hlater.slots, ?_⟩
  have htarget : (rule.update later).target = rule.target := by
    unfold UrlRule.update
    split <;> rfl
  rw [htarget]
  exact h.target

theorem Sound.remove (h : rule.Sound) (s : Slot) : (rule.remove s).Sound :=
  ⟨Slots.forall_put h.slots (by simp), h.target⟩

theorem sound_empty : Sound {} := ⟨fun s o ho => by simp at ho, by simp⟩

end UrlRule

namespace Ledger

/-- All rules can be written, and each domain has one rule. -/
structure Sound (l : Ledger) : Prop where
  urls : ∀ rule ∈ l.urlRules, rule.Sound
  defaultDomain : ∀ rule ∈ l.defaultDomain, rule.Sound ∧ rule.target = .all
  domains : ∀ rule ∈ l.domains, rule.Sound ∧ rule.target ≠ .all
  distinct : (l.domains.map DomainRule.key).Nodup

variable {l m : Ledger}

theorem sound_empty : Sound {} := by
  constructor <;> simp [urlRules]

private theorem Sound.mapUrl (h : l.Sound) {key : String} {f : UrlRule → UrlRule}
    (hf : ∀ rule : UrlRule, rule.Sound → (f rule).Sound) : (l.mapUrl key f).Sound := by
  refine ⟨fun rule hrule => ?_, h.defaultDomain, h.domains, h.distinct⟩
  rcases List.mem_append.mp hrule with hd | hu
  · exact h.urls rule (List.mem_append_left _ hd)
  · obtain ⟨old, hold, rfl⟩ := List.mem_map.mp hu
    have hsound := h.urls old (List.mem_append_right _ hold)
    split
    · exact hf old hsound
    · exact hsound

private theorem Sound.applyUrl (h : l.Sound) {rule : UrlRule} (hrule : rule.Sound) : (l.applyUrl rule).Sound := by
  unfold Ledger.applyUrl
  split
  · refine ⟨fun r hr => ?_, h.defaultDomain, h.domains, h.distinct⟩
    rcases List.mem_append.mp hr with hd | hu
    · obtain rfl := Option.some.inj (Option.mem_toList.mp hd)
      refine UrlRule.Sound.stored (UrlRule.Sound.update ?_ hrule)
      cases hdefault : l.defaultUrl with
      | none => exact UrlRule.sound_empty
      | some default => exact h.urls default (by simp [urlRules, hdefault])
    · exact h.urls r (List.mem_append_right _ hu)
  · split
    · exact h.mapUrl fun old hold => (hold.update hrule).stored
    · refine ⟨fun r hr => ?_, h.defaultDomain, h.domains, h.distinct⟩
      simp only [urlRules, List.mem_append, List.mem_singleton] at hr
      rcases hr with hd | hu | rfl
      · exact h.urls r (List.mem_append_left _ hd)
      · exact h.urls r (List.mem_append_right _ hu)
      · exact hrule.stored

private theorem Sound.applyRemoval (h : l.Sound) (removal : Removal) : (l.applyRemoval removal).Sound := by
  unfold Ledger.applyRemoval
  split
  · refine ⟨fun rule hrule => ?_, h.defaultDomain, h.domains, h.distinct⟩
    rcases List.mem_append.mp hrule with hd | hu
    · obtain ⟨old, hold, rfl⟩ := Option.map_eq_some_iff.mp (Option.mem_toList.mp hd)
      exact (h.urls old (List.mem_append_left _ (Option.mem_toList.mpr hold))).remove _
    · obtain ⟨old, hold, rfl⟩ := List.mem_map.mp hu
      exact (h.urls old (List.mem_append_right _ hold)).remove _
  · cases urlKey? _ with
    | none => exact h
    | some key => exact h.mapUrl fun old hold => hold.remove _

private theorem Sound.applyDeletion (h : l.Sound) (deletion : Deletion) : (l.applyDeletion deletion).Sound := by
  unfold Ledger.applyDeletion
  split
  · exact ⟨by simp [urlRules], h.defaultDomain, h.domains, h.distinct⟩
  · cases urlKey? _ with
    | none => exact h
    | some key =>
      refine ⟨fun rule hrule => ?_, h.defaultDomain, h.domains, h.distinct⟩
      rcases List.mem_append.mp hrule with hd | hu
      · exact h.urls rule (List.mem_append_left _ hd)
      · exact h.urls rule (List.mem_append_right _ (List.mem_filter.mp hu).1)
  · exact ⟨h.urls, by simp, by simp, by simp⟩
  · exact ⟨h.urls, h.defaultDomain, fun rule hrule => h.domains rule (List.mem_filter.mp hrule).1,
      h.distinct.sublist (List.filter_sublist.map _)⟩

private theorem Sound.applyDomain (h : l.Sound) {rule : DomainRule} (hrule : rule.Sound) :
    (l.applyDomain rule).Sound := by
  unfold Ledger.applyDomain
  split
  · rename_i ht
    refine ⟨h.urls, ?_, h.domains, h.distinct⟩
    intro r hr
    obtain rfl := Option.some.inj hr
    exact ⟨hrule, ht⟩
  · rename_i pattern ht
    have hkey := DomainRule.key_of_pattern ht
    have htarget : rule.target ≠ .all := by
      rw [ht]
      simp
    split
    · refine ⟨h.urls, h.defaultDomain, fun r hr => ?_, ?_⟩
      · obtain ⟨old, hold, rfl⟩ := List.mem_map.mp hr
        split
        · exact ⟨hrule, htarget⟩
        · exact h.domains old hold
      · have hkeys : (l.domains.map fun old => if old.key = pattern.name then rule else old).map DomainRule.key =
            l.domains.map DomainRule.key := by
          rw [List.map_map]
          refine List.map_congr_left fun old _ => ?_
          simp only [Function.comp_apply]
          split
          · rename_i hold
            rw [hkey, hold]
          · rfl
        rw [hkeys]
        exact h.distinct
    · rename_i hfresh
      refine ⟨h.urls, h.defaultDomain, fun r hr => ?_, ?_⟩
      · rcases List.mem_append.mp hr with hold | hnew
        · exact h.domains r hold
        · obtain rfl := List.mem_singleton.mp hnew
          exact ⟨hrule, htarget⟩
      · rw [List.map_append, List.nodup_append]
        refine ⟨h.distinct, by simp, ?_⟩
        rintro a ha b hb rfl
        obtain rfl := List.mem_singleton.mp hb
        obtain ⟨old, hold, heq⟩ := List.mem_map.mp ha
        refine hfresh (List.any_eq_true.mpr ⟨old, hold, ?_⟩)
        rw [heq, hkey]
        exact beq_self_eq_true _

theorem Sound.applyPolicy (h : l.Sound) (hpolicy : policy.Sound) (hm : l.applyPolicy policy = .ok m) : m.Sound := by
  cases policy with
  | url rule => cases hm; exact h.applyUrl hpolicy
  | remove removal => cases hm; exact h.applyRemoval removal
  | delete deletion => cases hm; exact h.applyDeletion deletion
  | domain rule => cases hm; exact h.applyDomain hpolicy
  | _ => cases hm

end Ledger

/-- After any history the rules of a profile can be written. -/
theorem Profile.sound_ledger {history : History} {p : Profile}
    (h : ({} : Profile).follow .standard history = .ok p) : p.ledger.Sound :=
  follow_induct (I := fun p => p.ledger.Sound) (fun {p q command shuffler policy} hp hread happly => by
    have hledger := ledger_applyPolicy p shuffler policy
    rw [happly] at hledger
    exact hp.applyPolicy (Registry.sound_of_read hread) hledger.symm) (p := {}) Ledger.sound_empty h

end TrafficPolicy
