import TrafficPolicy.Proofs.Profile.Ledger

/-!
# How many rules commands can add

No command adds more than one rule. If commands add as many rules as they are, each of them adds the rule that it
says, and the rules stand in the order of the commands.
-/

namespace TrafficPolicy

/-- The rule without a target that a policy is, if it is one. -/
def Policy.untargeted : Policy → List UrlRule
  | .url rule => if rule.target.isNone then [rule.stored] else []
  | _ => []

def Policy.targeted : Policy → List UrlRule
  | .url rule => if rule.target.isNone then [] else [rule.stored]
  | _ => []

def Policy.forAll : Policy → List DomainRule
  | .domain rule => if rule.target = .all then [rule] else []
  | _ => []

def Policy.forPattern : Policy → List DomainRule
  | .domain rule => if rule.target = .all then [] else [rule]
  | _ => []

namespace Ledger

variable {l m n : Ledger} {policy : Policy} {policies : List Policy}

def size (l : Ledger) : Nat := l.urlRules.length + l.domainRules.length

theorem length_commands (l : Ledger) : l.commands.length = l.size := by
  simp [commands, size]

/-- A ledger has the rules of another one and those that the policies say. -/
structure Extends (l m : Ledger) (policies : List Policy) : Prop where
  defaultUrl : m.defaultUrl.toList = l.defaultUrl.toList ++ policies.flatMap Policy.untargeted
  urls : m.urls = l.urls ++ policies.flatMap Policy.targeted
  defaultDomain : m.defaultDomain.toList = l.defaultDomain.toList ++ policies.flatMap Policy.forAll
  domains : m.domains = l.domains ++ policies.flatMap Policy.forPattern
  rules : ∀ policy ∈ policies, (∃ rule, policy = .url rule) ∨ ∃ rule, policy = .domain rule

theorem Extends.nil : Extends l l [] := by
  constructor <;> simp

theorem Extends.cons (h : Extends l m [policy]) (hs : Extends m n policies) : Extends l n (policy :: policies) where
  defaultUrl := by simp [hs.defaultUrl, h.defaultUrl]
  urls := by simp [hs.urls, h.urls]
  defaultDomain := by simp [hs.defaultDomain, h.defaultDomain]
  domains := by simp [hs.domains, h.domains]
  rules := List.forall_mem_cons.mpr ⟨h.rules policy List.mem_cons_self, hs.rules⟩

private theorem step_url (l : Ledger) (rule : UrlRule) : (l.applyUrl rule).size ≤ l.size + 1 ∧
    ((l.applyUrl rule).size = l.size + 1 → Extends l (l.applyUrl rule) [.url rule]) := by
  unfold applyUrl
  cases ht : rule.target with
  | none =>
    have hstored := UrlRule.stored_update_empty ht
    cases hd : l.defaultUrl with
    | none =>
      refine ⟨by simp [size, urlRules, domainRules, hd]; omega, fun _ => ?_⟩
      constructor <;> simp [Policy.untargeted, Policy.targeted, Policy.forAll, Policy.forPattern, ht, hd, hstored]
    | some default =>
      have hsize : size { l with defaultUrl := some (((some default).getD {}).update rule).stored } = l.size := by
        simp [size, urlRules, domainRules, hd]
      rw [hsize]
      exact ⟨by omega, fun h => absurd h (by omega)⟩
  | some target =>
    dsimp only
    split
    · have hsize : (l.mapUrl target.text fun old => (old.update rule).stored).size = l.size := by
        simp [size, urlRules, domainRules, mapUrl]
      rw [hsize]
      exact ⟨by omega, fun h => absurd h (by omega)⟩
    · refine ⟨by simp [size, urlRules, domainRules]; omega, fun _ => ?_⟩
      constructor <;> simp [Policy.untargeted, Policy.targeted, Policy.forAll, Policy.forPattern, ht]

private theorem step_domain (l : Ledger) (rule : DomainRule) : (l.applyDomain rule).size ≤ l.size + 1 ∧
    ((l.applyDomain rule).size = l.size + 1 → Extends l (l.applyDomain rule) [.domain rule]) := by
  unfold applyDomain
  cases ht : rule.target with
  | all =>
    cases hd : l.defaultDomain with
    | none =>
      refine ⟨by simp [size, urlRules, domainRules, hd]; omega, fun _ => ?_⟩
      constructor <;> simp [Policy.untargeted, Policy.targeted, Policy.forAll, Policy.forPattern, ht, hd]
    | some default =>
      have hsize : size { l with defaultDomain := some rule } = l.size := by
        simp [size, urlRules, domainRules, hd]
      rw [hsize]
      exact ⟨by omega, fun h => absurd h (by omega)⟩
  | pattern pattern =>
    dsimp only
    split
    · have hsize : size { l with domains := l.domains.map fun old => if old.key = pattern.name then rule else old } =
          l.size := by
        simp [size, urlRules, domainRules]
      rw [hsize]
      exact ⟨by omega, fun h => absurd h (by omega)⟩
    · refine ⟨by simp [size, urlRules, domainRules]; omega, fun _ => ?_⟩
      constructor <;> simp [Policy.untargeted, Policy.targeted, Policy.forAll, Policy.forPattern, ht]

private theorem size_applyRemoval (l : Ledger) (removal : Removal) : (l.applyRemoval removal).size = l.size := by
  unfold applyRemoval
  split
  · cases hd : l.defaultUrl <;> simp [size, urlRules, domainRules, hd]
  · cases urlKey? _ <;> simp [size, urlRules, domainRules, mapUrl]

private theorem size_applyDeletion (l : Ledger) (deletion : Deletion) : (l.applyDeletion deletion).size ≤ l.size := by
  unfold applyDeletion
  split
  · simp [size, urlRules, domainRules]
  · cases urlKey? _ with
    | none => exact Nat.le_refl _
    | some key =>
      simp only [Option.elim_some, size, urlRules, domainRules, List.length_append]
      exact Nat.add_le_add_right (Nat.add_le_add_left (List.length_filter_le _ _) _) _
  · simp [size, urlRules, domainRules]
  · simp only [size, urlRules, domainRules, List.length_append]
    exact Nat.add_le_add_left (Nat.add_le_add_left (List.length_filter_le _ _) _) _

/-- No policy adds more than one rule, and what adds one is that rule. -/
theorem extends_of_applyPolicy (h : l.applyPolicy policy = .ok m) :
    m.size ≤ l.size + 1 ∧ (m.size = l.size + 1 → Extends l m [policy]) := by
  cases policy with
  | url rule => cases h; exact step_url l rule
  | domain rule => cases h; exact step_domain l rule
  | remove removal =>
    cases h
    rw [size_applyRemoval]
    exact ⟨by omega, fun h => absurd h (by omega)⟩
  | delete deletion =>
    cases h
    have hsize := size_applyDeletion l deletion
    exact ⟨by omega, fun h => absurd h (by omega)⟩
  | _ => cases h

theorem run_cons_eq_ok_iff : l.run (policy :: policies) = .ok n ↔
    ∃ m, l.applyPolicy policy = .ok m ∧ m.run policies = .ok n := by
  rw [run, List.foldlM_cons]
  cases l.applyPolicy policy <;> simp [run, bind, Except.bind]

/-- Policies that add as many rules as they are each add the rule that they say. -/
theorem extends_of_run (h : l.run policies = .ok m) :
    m.size ≤ l.size + policies.length ∧ (m.size = l.size + policies.length → Extends l m policies) := by
  induction policies generalizing l with
  | nil =>
    cases h
    exact ⟨Nat.le_refl _, fun _ => .nil⟩
  | cons policy policies ih =>
    obtain ⟨next, hfirst, hrest⟩ := run_cons_eq_ok_iff.mp h
    obtain ⟨hle, hextends⟩ := extends_of_applyPolicy hfirst
    obtain ⟨hle', hextends'⟩ := ih hrest
    rw [List.length_cons]
    refine ⟨by omega, fun hsize => ?_⟩
    exact .cons (hextends (by omega)) (hextends' (by omega))

end Ledger

end TrafficPolicy
