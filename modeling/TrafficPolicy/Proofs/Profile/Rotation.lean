import Mathlib.Data.List.Rotate
import TrafficPolicy.Dns
import TrafficPolicy.Proofs.Grammar.ReadBack

/-!
# Addresses that are handed out in turn

A circular domain policy hands its addresses out in one order over and over again. Each turn goes on where the
last one has ended, whatever the limit is then, and a command that says the addresses again does not disturb
this. Nor does an answer that is not made of the addresses.
-/

namespace TrafficPolicy

/-! ## Windows -/

namespace DomainPolicy

variable {order : List Address} {start other count : Nat}

theorem window_congr (h : start % order.length = other % order.length) (count : Nat) :
    window order start count = window order other count := by
  unfold window
  congr 1
  funext i
  rw [Nat.add_mod start, Nat.add_mod other, h]

theorem window_add (order : List Address) (start a b : Nat) :
    window order start (a + b) = window order start a ++ window order (start + a) b := by
  simp only [window, List.range_add, List.filterMap_append, List.filterMap_map, Function.comp_def, Nat.add_assoc]

theorem window_eq_map (h : order ≠ []) (start count : Nat) :
    window order start count = (List.range count).map fun i =>
      order.get ⟨(start + i) % order.length, Nat.mod_lt _ (List.length_pos_of_ne_nil h)⟩ := by
  unfold window
  rw [← List.filterMap_eq_map]
  refine List.filterMap_congr fun i _ => ?_
  exact List.getElem?_eq_getElem _

theorem length_window (h : order ≠ []) (start count : Nat) : (window order start count).length = count := by
  rw [window_eq_map h, List.length_map, List.length_range]

/-- A whole round from a place on. -/
theorem window_length (order : List Address) (start : Nat) :
    window order start order.length = order.rotate start := by
  by_cases h : order = []
  · subst h
    rfl
  · refine List.ext_getElem (by simp [length_window h]) fun i hi hi' => ?_
    simp only [window_eq_map h, List.getElem_map, List.getElem_range, List.getElem_rotate, List.get_eq_getElem,
      Nat.add_comm start]

theorem window_rounds (order : List Address) (start rounds : Nat) :
    window order start (order.length * rounds) = (List.replicate rounds (order.rotate start)).flatten := by
  induction rounds with
  | zero => rfl
  | succ rounds ih =>
    -- The last round begins at the same place as the first one.
    have hround : (start + order.length * rounds) % order.length = start % order.length := by simp
    rw [Nat.mul_succ, window_add, ih, window_congr hround, window_length, List.replicate_succ', List.flatten_append,
      List.flatten_singleton]

/-- A window is the start of an order that is repeated from a place on. -/
theorem window_prefix (h : order ≠ []) (start count : Nat) :
    window order start count <+: (List.replicate count (order.rotate start)).flatten := by
  have hlength : 1 ≤ order.length := List.length_pos_of_ne_nil h
  have hcount : count ≤ order.length * count := Nat.le_mul_of_pos_left count hlength
  obtain ⟨more, hmore⟩ := Nat.exists_eq_add_of_le hcount
  rw [← window_rounds, hmore, window_add]
  exact List.prefix_append _ _

end DomainPolicy

/-! ## What happens to a domain policy -/

/-- What may happen to the domain policy at some place of a profile. -/
inductive DomainStep where
  /-- Addresses are taken from it. -/
  | next
  /-- A question is answered under it. -/
  | answer (answerer : Dns.Answerer) (domain : String) (factor : Float) (now : Nat)
  /-- A command is applied to the profile. -/
  | command (shuffler : Shuffler) (text : String)

/-- The addresses of an answer that have been taken from the policy. -/
def Dns.Outcome.handed (outcome : Dns.Outcome) (policy : DomainPolicy) : List (List Address) :=
  if policy.rule.action = .resolve ∧ outcome.asked = false then
    match outcome.result with
    | .ok addresses => [addresses]
    | .error _ => []
  else []

namespace Profile

/-- What the policy at a place hands out in a step, and the profile after it. A command that is refused changes
nothing. -/
def step (p : Profile) (registry : Registry) (place : DomainPlace) : DomainStep → List (List Address) × Profile
  | .next =>
    match p.domainAt? place with
    | none => ([], p)
    | some policy => ([policy.next.1], p.putDomain policy.next.2 place)
  | .answer answerer domain factor now =>
    match p.domainAt? place with
    | none => ([], p)
    | some policy =>
      let outcome := answerer.answer domain (some policy) factor now
      (outcome.handed policy, p.putDomain (outcome.policy.getD policy) place)
  | .command shuffler text =>
    match p.apply registry shuffler text with
    | .ok next => ([], next)
    | .error _ => ([], p)

def steps (p : Profile) (registry : Registry) (place : DomainPlace) :
    List DomainStep → List (List Address) × Profile
  | [] => ([], p)
  | step :: rest =>
    let (handed, next) := p.step registry place step
    let (later, last) := next.steps registry place rest
    (handed ++ later, last)

/-- The profiles that there can be. -/
inductive Reachable (registry : Registry) : Profile → Prop
  | fresh : Reachable registry {}
  | step {p : Profile} (place : DomainPlace) (step : DomainStep) :
      Reachable registry p → Reachable registry (p.step registry place step).2
  | drop {p : Profile} (policy : UrlPolicy) (now : Nat) :
      Reachable registry p → Reachable registry (p.shouldDrop policy now).2

end Profile

/-- A step is no command, or it is one that says the addresses of a rule again for the same domains, to be handed
out in turn. -/
def DomainStep.Renews (registry : Registry) (rule : DomainRule) : DomainStep → Prop
  | .command _ text => ∃ next, registry.read text = .ok (.domain next) ∧
      normalDomain next.target.text.toList = normalDomain rule.target.text.toList ∧
      next.addresses = rule.addresses ∧ next.shuffle = rule.shuffle ∧ next.circular = true
  | _ => True

/-! ## The order of a policy -/

namespace DomainPolicy

variable {policy start : DomainPolicy} {shuffler : Shuffler} {rule : DomainRule} {handed : List Address}

/-- The order is one of the addresses, and theirs if it is not shuffled. -/
structure Ordered (policy : DomainPolicy) : Prop where
  perm : policy.order.Perm policy.rule.addresses
  unshuffled : policy.rule.shuffle = false → policy.order = policy.rule.addresses

theorem Ordered.order_ne_nil (h : policy.Ordered) (haddresses : policy.rule.addresses ≠ []) : policy.order ≠ [] := by
  intro hnil
  have hperm := h.perm
  rw [hnil] at hperm
  exact haddresses (List.nil_perm.mp hperm)

/-- Sorted, the order does not tell how it was shuffled. -/
theorem Ordered.mergeSort_order (h : policy.Ordered) :
    policy.order.mergeSort Address.le = policy.rule.addresses.mergeSort Address.le := by
  have hsorted (addresses : List Address) := List.pairwise_mergeSort Address.le_trans Address.le_total addresses
  refine List.Perm.eq_of_pairwise (fun _ _ _ _ => Address.le_antisymm) (hsorted _) (hsorted _) ?_
  exact (List.mergeSort_perm _ _).trans (h.perm.trans (List.mergeSort_perm _ _).symm)

theorem ordered_ofRule (shuffler : Shuffler) (rule : DomainRule) : (ofRule shuffler rule).Ordered := by
  unfold ofRule
  cases hshuffle : rule.shuffle with
  | true => exact ⟨shuffler.perm rule.addresses, fun h => absurd (hshuffle.symm.trans h) (by simp)⟩
  | false => exact ⟨List.Perm.refl _, fun _ => rfl⟩

theorem keepsRotation_iff {earlier later : DomainRule} : keepsRotation earlier later = true ↔
    earlier.addresses = later.addresses ∧ earlier.shuffle = later.shuffle ∧ earlier.circular = true ∧
      later.circular = true := by
  simp only [keepsRotation, Bool.and_eq_true, beq_iff_eq, and_assoc]

theorem Ordered.update (h : policy.Ordered) (shuffler : Shuffler) (rule : DomainRule) :
    (policy.update shuffler rule).Ordered := by
  unfold DomainPolicy.update
  split
  · rename_i hkeeps
    obtain ⟨haddresses, hshuffle, -, -⟩ := keepsRotation_iff.mp hkeeps
    refine ⟨?_, fun hoff => ?_⟩
    · rw [← haddresses]
      exact h.perm
    · rw [← haddresses]
      exact h.unshuffled (hshuffle.trans hoff)
  · exact ordered_ofRule shuffler rule

theorem rule_next (policy : DomainPolicy) : policy.next.2.rule = policy.rule := by
  unfold next
  split
  · rfl
  · split <;> rfl

theorem order_next (policy : DomainPolicy) : policy.next.2.order = policy.order := by
  unfold next
  split
  · rfl
  · split <;> rfl

theorem Ordered.next (h : policy.Ordered) : policy.next.2.Ordered := by
  refine ⟨?_, fun hoff => ?_⟩
  · rw [order_next, rule_next]
    exact h.perm
  · rw [rule_next] at hoff
    rw [order_next, rule_next]
    exact h.unshuffled hoff

/-- A policy that has handed out some addresses since it was another one: the next ones of its order. -/
structure Turned (start : DomainPolicy) (handed : List Address) (policy : DomainPolicy) : Prop where
  order : policy.order = start.order
  addresses : policy.rule.addresses = start.rule.addresses
  shuffle : policy.rule.shuffle = start.rule.shuffle
  circular : policy.rule.circular = true
  key : policy.key = start.key
  taken : handed = window start.order start.cursor handed.length
  cursor : policy.cursor % start.order.length = (start.cursor + handed.length) % start.order.length

theorem turned_self (h : policy.rule.circular = true) : policy.Turned [] policy :=
  ⟨rfl, rfl, rfl, h, rfl, rfl, rfl⟩

theorem next_eq_window (h : policy.rule.circular = true) :
    policy.next.1 = window policy.order policy.cursor policy.count ∧
      policy.next.2.cursor % policy.order.length = (policy.cursor + policy.count) % policy.order.length := by
  unfold next
  split
  · rename_i hcount
    rw [hcount]
    exact ⟨rfl, rfl⟩
  · exact ⟨rfl, Nat.mod_mod _ _⟩

theorem Turned.next (h : start.Turned handed policy) (horder : start.order ≠ []) :
    start.Turned (handed ++ policy.next.1) policy.next.2 := by
  obtain ⟨hwindow, hcursor⟩ := next_eq_window h.circular
  have hlength : policy.next.1.length = policy.count := by
    rw [hwindow, h.order, length_window horder]
  refine ⟨(order_next policy).trans h.order, ?_, ?_, ?_, ?_, ?_, ?_⟩
  · rw [rule_next, h.addresses]
  · rw [rule_next, h.shuffle]
  · rw [rule_next, h.circular]
  · show normalDomain policy.next.2.rule.target.text.toList = start.key
    rw [rule_next]
    exact h.key
  · have hplace : window policy.order policy.cursor policy.count =
        window start.order (start.cursor + handed.length) policy.count := by
      rw [h.order]
      exact window_congr h.cursor policy.count
    rw [List.length_append, hlength, window_add, ← h.taken, hwindow, hplace]
  · rw [h.order] at hcursor
    rw [hcursor, Nat.add_mod, h.cursor, ← Nat.add_mod, List.length_append, hlength, Nat.add_assoc]

theorem Turned.update (h : start.Turned handed policy) (haddresses : rule.addresses = start.rule.addresses)
    (hshuffle : rule.shuffle = start.rule.shuffle) (hcircular : rule.circular = true)
    (hkey : normalDomain rule.target.text.toList = start.key) (shuffler : Shuffler) :
    start.Turned handed (policy.update shuffler rule) := by
  have hkeeps : keepsRotation policy.rule rule = true := keepsRotation_iff.mpr
    ⟨h.addresses.trans haddresses.symm, h.shuffle.trans hshuffle.symm, h.circular, hcircular⟩
  rw [DomainPolicy.update, if_pos hkeeps]
  exact ⟨h.order, haddresses, hshuffle, hcircular, hkey, h.taken, h.cursor⟩

/-- An answer hands out what the next turn of the policy does, or nothing. -/
theorem answer_cases (policy : DomainPolicy) (answerer : Dns.Answerer) (domain : String) (factor : Float) (now : Nat) :
    let outcome := answerer.answer domain (some policy) factor now
    (policy.rule.action = .resolve ∧ outcome.handed policy = [policy.next.1] ∧
        outcome.policy = some policy.next.2) ∨
      (policy.rule.action = .resolve → policy.rule.addresses = []) ∧ outcome.handed policy = [] ∧
        outcome.policy = some policy := by
  cases haction : policy.rule.action with
  | resolve =>
    by_cases hnone : policy.rule.addresses = []
    · simp [Dns.Answerer.answer, reply, haction, hnone, Dns.Outcome.handed]
    · simp [Dns.Answerer.answer, reply, haction, hnone, Dns.Outcome.handed]
  | _ => simp [Dns.Answerer.answer, reply, haction, Dns.Outcome.handed]

theorem count_eq (h : policy.Ordered) :
    policy.count = min (policy.rule.limit.getD policy.rule.addresses.length) policy.rule.addresses.length := by
  rw [count, h.perm.length_eq]

end DomainPolicy

namespace Profile

variable {p q : Profile} {registry : Registry} {place : DomainPlace} {policy later : DomainPolicy}

/-! ## Profiles that there can be -/

theorem mem_of_domainAt? (h : p.domainAt? place = some policy) : policy ∈ p.domainPolicies := by
  cases place with
  | fallback => exact List.mem_append_left _ (Option.mem_toList.mpr h)
  | pattern index => exact List.mem_append_right _ (List.mem_of_getElem? h)

theorem exists_domainAt? (h : policy ∈ p.domainPolicies) : ∃ place, p.domainAt? place = some policy := by
  rcases List.mem_append.mp h with hmem | hmem
  · exact ⟨.fallback, Option.mem_toList.mp hmem⟩
  · obtain ⟨index, hindex⟩ := List.getElem?_of_mem hmem
    exact ⟨.pattern index, hindex⟩

theorem mem_domainPolicies_putDomain (h : policy ∈ (p.putDomain later place).domainPolicies) :
    policy ∈ p.domainPolicies ∨ policy = later := by
  cases place with
  | fallback =>
    rcases List.mem_append.mp h with hmem | hmem
    · exact .inr (Option.some.inj (Option.mem_toList.mp hmem)).symm
    · exact .inl (List.mem_append_right _ hmem)
  | pattern index =>
    rcases List.mem_append.mp h with hmem | hmem
    · exact .inl (List.mem_append_left _ hmem)
    · exact (List.mem_or_eq_of_mem_set hmem).imp_left (List.mem_append_right _)

theorem domainPolicies_applyUrl (p : Profile) (rule : UrlRule) :
    (p.applyUrl rule).domainPolicies = p.domainPolicies := by
  unfold applyUrl
  split
  · rfl
  · unfold applyTargeted
    split <;> rfl

theorem domainPolicies_applyRemoval (p : Profile) (removal : Removal) :
    (p.applyRemoval removal).domainPolicies = p.domainPolicies := by
  unfold applyRemoval
  cases removal.target with
  | all => rfl
  | named name =>
    dsimp only
    split <;> rfl

theorem domainPolicies_applyDeletion (p : Profile) (deletion : Deletion) :
    (p.applyDeletion deletion).domainPolicies.Sublist p.domainPolicies := by
  unfold applyDeletion
  split
  · exact .refl _
  · split <;> exact .refl _
  · exact List.nil_sublist _
  · exact (List.Sublist.refl _).append List.filter_sublist

/-- The policy at a place after a rule has been applied was there before, or it is the one issued for this rule. -/
theorem domainAt?_of_applyDomain {shuffler : Shuffler} {rule : DomainRule}
    (h : (p.applyDomain shuffler rule).domainAt? place = some policy) :
    p.domainAt? place = some policy ∨ policy = issue shuffler (p.domainAt? place) rule := by
  unfold applyDomain at h
  split at h
  · cases place with
    | fallback => exact .inr (Option.some.inj h).symm
    | pattern index => exact .inl h
  · split at h
    · cases place with
      | fallback => exact .inl h
      | pattern index =>
        rw [domainAt?, List.getElem?_map] at h
        obtain ⟨earlier, hearlier, heq⟩ := Option.map_eq_some_iff.mp h
        have hat : p.domainAt? (.pattern index) = some earlier := hearlier
        rw [hat]
        split at heq
        · exact .inr heq.symm
        · exact .inl (congrArg some heq)
    · cases place with
      | fallback => exact .inl h
      | pattern index =>
        rw [domainAt?, List.getElem?_append] at h
        split at h
        · exact .inl h
        · rename_i hlength
          have hat : p.domainAt? (.pattern index) = none := List.getElem?_eq_none (Nat.le_of_not_lt hlength)
          rw [hat]
          exact .inr (List.mem_singleton.mp (List.mem_of_getElem? h))

theorem ordered_applyPolicy {shuffler : Shuffler} {read : Policy}
    (h : ∀ policy ∈ p.domainPolicies, policy.Ordered) (hq : p.applyPolicy shuffler read = .ok q) :
    ∀ policy ∈ q.domainPolicies, policy.Ordered := by
  intro policy hmem
  unfold applyPolicy at hq
  split at hq <;> cases hq
  · rw [domainPolicies_applyUrl] at hmem
    exact h policy hmem
  · rw [domainPolicies_applyRemoval] at hmem
    exact h policy hmem
  · exact h policy ((domainPolicies_applyDeletion p _).subset hmem)
  · obtain ⟨place, hat⟩ := exists_domainAt? hmem
    rcases domainAt?_of_applyDomain hat with hold | rfl
    · exact h policy (mem_of_domainAt? hold)
    · cases hearlier : p.domainAt? place with
      | none => exact DomainPolicy.ordered_ofRule shuffler _
      | some earlier => exact (h earlier (mem_of_domainAt? hearlier)).update shuffler _

theorem ordered_putDomain (h : ∀ policy ∈ p.domainPolicies, policy.Ordered) (hlater : later.Ordered) :
    ∀ policy ∈ (p.putDomain later place).domainPolicies, policy.Ordered := by
  intro policy hmem
  rcases mem_domainPolicies_putDomain hmem with hold | rfl
  · exact h policy hold
  · exact hlater

theorem ordered_answer (h : policy.Ordered) (answerer : Dns.Answerer) (domain : String) (factor : Float) (now : Nat) :
    ((answerer.answer domain (some policy) factor now).policy.getD policy).Ordered := by
  rcases policy.answer_cases answerer domain factor now with ⟨-, -, hpolicy⟩ | ⟨-, -, hpolicy⟩
  · rw [hpolicy]
    exact h.next
  · rw [hpolicy]
    exact h

theorem Reachable.ordered (h : Reachable registry p) : ∀ policy ∈ p.domainPolicies, policy.Ordered := by
  induction h with
  | fresh => simp [domainPolicies]
  | @step p place step _ ih =>
    cases step with
    | next =>
      cases hat : p.domainAt? place with
      | none => simpa only [Profile.step, hat] using ih
      | some policy =>
        have hnext := (ih policy (mem_of_domainAt? hat)).next
        simpa only [Profile.step, hat] using ordered_putDomain ih hnext
    | answer answerer domain factor now =>
      cases hat : p.domainAt? place with
      | none => simpa only [Profile.step, hat] using ih
      | some policy =>
        have hlater := ordered_answer (ih policy (mem_of_domainAt? hat)) answerer domain factor now
        simpa only [Profile.step, hat] using ordered_putDomain ih hlater
    | command shuffler text =>
      cases happly : p.apply registry shuffler text with
      | error e => simpa only [Profile.step, happly] using ih
      | ok q =>
        obtain ⟨read, -, hq⟩ := apply_eq_ok_iff.mp happly
        simpa only [Profile.step, happly] using ordered_applyPolicy ih hq
  | drop policy now _ ih =>
    unfold shouldDrop
    split <;> exact ih

theorem Reachable.steps (h : Reachable registry p) (place : DomainPlace) (turns : List DomainStep) :
    Reachable registry (p.steps registry place turns).2 := by
  induction turns generalizing p with
  | nil => exact h
  | cons turn turns ih => exact ih (h.step place turn)

/-! ## One step -/

theorem domainAt?_putDomain (h : p.domainAt? place = some policy) (later : DomainPolicy) :
    (p.putDomain later place).domainAt? place = some later := by
  cases place with
  | fallback => rfl
  | pattern index =>
    obtain ⟨hindex, -⟩ := List.getElem?_eq_some_iff.mp h
    exact List.getElem?_set_self hindex

theorem putDomain_self (h : p.domainAt? place = some policy) : p.putDomain policy place = p := by
  cases place with
  | fallback =>
    unfold putDomain
    rw [← show p.defaultDomain = some policy from h]
  | pattern index =>
    obtain ⟨hindex, hpolicy⟩ := List.getElem?_eq_some_iff.mp h
    simp only [putDomain, ← hpolicy, List.set_getElem_self]

/-- A rule for the same domains replaces that of a policy, unless one of them is for all domains and the other for
the domain of this name. -/
theorem domainAt?_applyDomain {rule : DomainRule} (h : p.domainAt? place = some policy)
    (hkey : normalDomain rule.target.text.toList = policy.key) (shuffler : Shuffler) :
    (p.applyDomain shuffler rule).domainAt? place =
      some (if place = .fallback ↔ rule.target = .all then policy.update shuffler rule else policy) := by
  unfold applyDomain
  cases htarget : rule.target with
  | all =>
    cases place with
    | fallback =>
      have hat : p.defaultDomain = some policy := h
      simp [domainAt?, issue, hat]
    | pattern index => simpa [domainAt?] using h
  | pattern pattern =>
    cases place with
    | fallback =>
      have hat : p.defaultDomain = some policy := h
      dsimp only
      split <;> simp [domainAt?, hat]
    | pattern index =>
      have hat : p.domains[index]? = some policy := h
      have hname : policy.key = pattern.name := by
        rw [← hkey, htarget]
        rfl
      have hany : (p.domains.any fun domain => domain.key == pattern.name) = true :=
        List.any_eq_true.mpr ⟨policy, List.mem_of_getElem? hat, beq_iff_eq.mpr hname⟩
      simp [domainAt?, hany, hat, hname]

/-- An answer is a turn of the policy, or it does not touch it. -/
theorem step_answer (h : p.domainAt? place = some policy) (haddresses : policy.rule.addresses ≠ [])
    (answerer : Dns.Answerer) (domain : String) (factor : Float) (now : Nat) :
    p.step registry place (.answer answerer domain factor now) =
      if policy.rule.action = .resolve then p.step registry place .next else ([], p) := by
  rcases policy.answer_cases answerer domain factor now with
    ⟨haction, hhanded, hpolicy⟩ | ⟨hnone, hhanded, hpolicy⟩
  · simp only [step, h, hhanded, hpolicy, Option.getD_some, if_pos haction]
  · have haction : policy.rule.action ≠ .resolve := fun haction => haddresses (hnone haction)
    simp only [step, h, hhanded, hpolicy, Option.getD_some, if_neg haction, putDomain_self h]

/-- Answering a question under the policy that counts for a domain is a step at the place of this policy. -/
theorem useDomain_answer_eq_step (registry : Registry) {domain : String} (hplace : p.domainPlace? domain = some place)
    (h : p.domainAt? place = some policy) (answerer : Dns.Answerer) (factor : Float) (now : Nat) :
    (p.useDomain domain fun policy? =>
      let outcome := answerer.answer domain policy? factor now
      (outcome, outcome.policy)).2 = (p.step registry place (.answer answerer domain factor now)).2 := by
  rcases policy.answer_cases answerer domain factor now with ⟨-, -, hpolicy⟩ | ⟨-, -, hpolicy⟩
  · simp only [useDomain, step, hplace, h, hpolicy, Option.getD_some]
  · simp only [useDomain, step, hplace, h, hpolicy, Option.getD_some]

theorem step_command {shuffler : Shuffler} {text : String} {rule : DomainRule}
    (hread : registry.read text = .ok (.domain rule)) :
    p.step registry place (.command shuffler text) = ([], p.applyDomain shuffler rule) := by
  have happly : p.apply registry shuffler text = .ok (p.applyDomain shuffler rule) :=
    apply_eq_ok_iff.mpr ⟨_, hread, rfl⟩
  simp only [step, happly]

/-- A policy that a command has just stored starts over, if there was none before that it goes on from. -/
theorem cursor_of_applyDomain {shuffler : Shuffler}
    (h : (p.applyDomain shuffler policy.rule).domainAt? place = some policy) (hcircular : policy.rule.circular = true)
    (hstart : ∀ earlier, p.domainAt? place = some earlier → DomainPolicy.keepsRotation earlier.rule policy.rule = false) :
    policy.cursor = 0 := by
  rcases domainAt?_of_applyDomain h with hold | hissue
  · have hkeeps : DomainPolicy.keepsRotation policy.rule policy.rule = true :=
      DomainPolicy.keepsRotation_iff.mpr ⟨rfl, rfl, hcircular, hcircular⟩
    rw [hstart policy hold] at hkeeps
    cases hkeeps
  · rw [hissue]
    cases hat : p.domainAt? place with
    | none => rfl
    | some earlier =>
      rw [issue, DomainPolicy.update, hstart earlier hat]
      rfl

/-! ## A run -/

/-- What a policy hands out in a step that renews it is what comes next in its order. -/
theorem exists_turned_step {start : DomainPolicy} {handed : List Address} {turn : DomainStep}
    (h : p.domainAt? place = some policy) (hturned : start.Turned handed policy) (horder : start.order ≠ [])
    (haddresses : start.rule.addresses ≠ []) (hturn : turn.Renews registry start.rule) :
    ∃ later, (p.step registry place turn).2.domainAt? place = some later ∧
      start.Turned (handed ++ (p.step registry place turn).1.flatten) later := by
  have hnext : ∃ later, (p.step registry place .next).2.domainAt? place = some later ∧
      start.Turned (handed ++ (p.step registry place .next).1.flatten) later := by
    simp only [step, h, List.flatten_singleton]
    exact ⟨policy.next.2, domainAt?_putDomain h _, hturned.next horder⟩
  have hidle : start.Turned (handed ++ [].flatten) policy := by
    rw [List.flatten_nil, List.append_nil]
    exact hturned
  cases turn with
  | next => exact hnext
  | answer answerer domain factor now =>
    have hsome : policy.rule.addresses ≠ [] := by
      rw [hturned.addresses]
      exact haddresses
    rw [step_answer h hsome]
    split
    · exact hnext
    · exact ⟨policy, h, hidle⟩
  | command shuffler text =>
    obtain ⟨rule, hread, hkey, hlist, hshuffle, hcircular⟩ := hturn
    rw [step_command hread, domainAt?_applyDomain h (hkey.trans hturned.key.symm)]
    refine ⟨_, rfl, ?_⟩
    split
    · exact hidle.update hlist hshuffle hcircular hkey shuffler
    · -- The command is for all domains and the policy for the domain of that name, or the other way round.
      exact hidle

theorem exists_turned_steps {start : DomainPolicy} {handed : List Address} {turns : List DomainStep}
    (h : p.domainAt? place = some policy) (hturned : start.Turned handed policy) (horder : start.order ≠ [])
    (haddresses : start.rule.addresses ≠ []) (hturns : ∀ turn ∈ turns, turn.Renews registry start.rule) :
    ∃ later, (p.steps registry place turns).2.domainAt? place = some later ∧
      start.Turned (handed ++ (p.steps registry place turns).1.flatten) later := by
  induction turns generalizing p policy handed with
  | nil =>
    refine ⟨policy, h, ?_⟩
    simpa only [steps, List.flatten_nil, List.append_nil] using hturned
  | cons turn turns ih =>
    obtain ⟨hturn, hturns⟩ := List.forall_mem_cons.mp hturns
    obtain ⟨next, hat, hnext⟩ := exists_turned_step h hturned horder haddresses hturn
    obtain ⟨later, hlast, hlater⟩ := ih hat hnext hturns
    refine ⟨later, hlast, ?_⟩
    simpa only [steps, List.flatten_append, List.append_assoc] using hlater

/-- What the policy at a place does next. -/
structure Serves (registry : Registry) (place : DomainPlace) (p : Profile) (policy : DomainPolicy) : Prop where
  stored : p.domainAt? place = some policy
  /-- A turn hands out as many addresses as the limit says. -/
  next : ∃ given, (p.step registry place .next).1 = [given] ∧ given.length =
    min (policy.rule.limit.getD policy.rule.addresses.length) policy.rule.addresses.length
  /-- An answer takes one turn under the action that resolves, and does nothing under the others. -/
  answer : ∀ answerer domain factor now, p.step registry place (.answer answerer domain factor now) =
    if policy.rule.action = .resolve then p.step registry place .next else ([], p)
  /-- A command for its domains is in force from now on. -/
  command : ∀ shuffler text rule, registry.read text = .ok (.domain rule) →
    normalDomain rule.target.text.toList = policy.key → (place = .fallback ↔ rule.target = .all) →
    ∃ q later, p.step registry place (.command shuffler text) = ([], q) ∧ q.domainAt? place = some later ∧
      later.rule = rule

theorem serves_of_ordered (h : p.domainAt? place = some policy) (hordered : policy.Ordered)
    (hcircular : policy.rule.circular = true) (haddresses : policy.rule.addresses ≠ []) :
    p.Serves registry place policy where
  stored := h
  next := by
    refine ⟨policy.next.1, ?_, ?_⟩
    · simp only [step, h]
    · have horder := hordered.order_ne_nil haddresses
      rw [(DomainPolicy.next_eq_window hcircular).1, DomainPolicy.length_window horder,
        DomainPolicy.count_eq hordered]
  answer := step_answer h haddresses
  command := by
    intro shuffler text rule hread hkey hplace
    refine ⟨_, policy.update shuffler rule, step_command hread, ?_, rule_update policy shuffler rule⟩
    rw [domainAt?_applyDomain h hkey, if_pos hplace]

/-- A circular policy hands its addresses out in one order, from its place in that order on, over and over again.
Each list is as long as the limit says that counts then. A policy that a command has just stored is at the start, if
there was none before with the same addresses in turn. -/
theorem hands_out_in_turn (hp : Reachable registry p) (h : p.domainAt? place = some policy)
    (hcircular : policy.rule.circular = true) (haddresses : policy.rule.addresses ≠ []) :
    (∃ order : List Address, order.Perm policy.rule.addresses ∧
      (policy.rule.shuffle = false → order = policy.rule.addresses) ∧
      ∀ turns : List DomainStep, (∀ turn ∈ turns, turn.Renews registry policy.rule) →
        ∃ later, (p.steps registry place turns).2.Serves registry place later ∧
          later.rule.addresses = policy.rule.addresses ∧
          ∃ rounds, (p.steps registry place turns).1.flatten <+:
            (List.replicate rounds (order.rotate policy.cursor)).flatten) ∧
    ∀ (before : Profile) shuffler text, before.apply registry shuffler text = .ok p →
      registry.read text = .ok (.domain policy.rule) →
      (∀ earlier, before.domainAt? place = some earlier → ¬(earlier.rule.addresses = policy.rule.addresses ∧
        earlier.rule.shuffle = policy.rule.shuffle ∧ earlier.rule.circular = true)) →
      policy.cursor = 0 := by
  have hordered : policy.Ordered := hp.ordered policy (mem_of_domainAt? h)
  have horder := hordered.order_ne_nil haddresses
  refine ⟨⟨policy.order, hordered.perm, hordered.unshuffled, fun turns hturns => ?_⟩, ?_⟩
  · obtain ⟨later, hat, hlater⟩ :=
      exists_turned_steps h (DomainPolicy.turned_self hcircular) horder haddresses hturns
    have hlist : later.rule.addresses ≠ [] := by
      rw [hlater.addresses]
      exact haddresses
    have hlast : later.Ordered := (hp.steps place turns).ordered later (mem_of_domainAt? hat)
    refine ⟨later, serves_of_ordered hat hlast hlater.circular hlist, hlater.addresses, ?_⟩
    have htaken := hlater.taken
    rw [List.nil_append] at htaken
    rw [htaken]
    exact ⟨_, DomainPolicy.window_prefix horder policy.cursor _⟩
  · intro before shuffler text happly hread hstart
    obtain ⟨_, hread', hp'⟩ := apply_eq_ok_iff.mp happly
    obtain rfl := Except.ok.inj (hread.symm.trans hread')
    cases hp'
    refine cursor_of_applyDomain h hcircular fun earlier hearlier => ?_
    rw [Bool.eq_false_iff, Ne, DomainPolicy.keepsRotation_iff]
    rintro ⟨hlist, hshuffle, hturn, -⟩
    exact hstart earlier hearlier ⟨hlist, hshuffle, hturn⟩

private def threeInTurn (limit : Nat) : DomainRule where
  circular := true
  limit := some limit
  target := .pattern .host
  addresses := [.octets #v[10, 0, 0, 1], .octets #v[10, 0, 0, 2], .octets #v[10, 0, 0, 3]]

private theorem read_threeInTurn {limit : Nat} (hlimit : Number.fitsWord limit) :
    Registry.standard.read (threeInTurn limit).command = .ok (.domain (threeInTurn limit)) := by
  have hsound : (threeInTurn limit).Sound := by
    refine ⟨?_, ?_, ?_, ?_, ?_⟩
    · exact fun _ h => nomatch h
    · intro n hn
      obtain rfl := Option.some.inj hn
      exact hlimit
    · have hread : DomainTarget.read "g.cn" = .ok (threeInTurn 0).target := by decide
      exact hread
    · have hplain : Text.Plain "g.cn" := by decide
      exact hplain
    · have hkeyword : "g.cn" ∉ DomainRule.keywords := by decide
      exact hkeyword
  refine hsound.read_command_self rfl ?_
  intro hparts
  simp [DomainRule.parts, threeInTurn] at hparts

/-- Two addresses, and then with another limit one: the third of the first round. -/
theorem hands_out_in_turn_three :
    ∃ p, ({} : Profile).step .standard (.pattern 0) (.command .inOrder (threeInTurn 2).command) = ([], p) ∧
      ∃ rounds, (p.steps .standard (.pattern 0)
        [.next, .command .inOrder (threeInTurn 1).command, .next]).1.flatten <+:
          (List.replicate rounds (threeInTurn 2).addresses).flatten := by
  let p : Profile := { domains := [.ofRule .inOrder (threeInTurn 2)] }
  have hstep : ({} : Profile).step .standard (.pattern 0) (.command .inOrder (threeInTurn 2).command) = ([], p) :=
    step_command (read_threeInTurn (by decide))
  have hp : Reachable .standard p := by
    have hfresh : Reachable .standard {} := .fresh
    have hstored := hfresh.step (.pattern 0) (.command .inOrder (threeInTurn 2).command)
    rw [hstep] at hstored
    exact hstored
  have hat : p.domainAt? (.pattern 0) = some (.ofRule .inOrder (threeInTurn 2)) := rfl
  obtain ⟨⟨order, -, horder, hturns⟩, -⟩ := hands_out_in_turn hp hat rfl (List.cons_ne_nil _ _)
  obtain ⟨-, -, -, rounds, hprefix⟩ := hturns
    [.next, .command .inOrder (threeInTurn 1).command, .next] (by
      intro turn hturn
      simp only [List.mem_cons, List.not_mem_nil, or_false] at hturn
      obtain rfl | rfl | rfl := hturn
      · trivial
      · exact ⟨_, read_threeInTurn (by decide), rfl, rfl, rfl, rfl⟩
      · trivial)
  refine ⟨p, hstep, rounds, ?_⟩
  have hsame : order.rotate (DomainPolicy.ofRule .inOrder (threeInTurn 2)).cursor = (threeInTurn 2).addresses := by
    rw [horder rfl]
    exact List.rotate_zero _
  rw [hsame] at hprefix
  exact hprefix

end Profile

end TrafficPolicy
