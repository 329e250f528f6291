import TrafficPolicy.Profile.Resolve
import Mathlib.Data.List.Forall2

/-!
# The first greatest of two related lists

Two lists whose members are related one by one, so that neither the order nor what exceeds what differs, have
related first greatest members. So the policy that counts for a domain can be looked for among the policies
instead of their places.
-/

namespace TrafficPolicy

variable {α β : Type} {R : α → β → Prop} {f : α → α → Bool} {g : β → β → Bool}

private theorem foldl_rel (hexceeds : ∀ a a' b b', R a b → R a' b' → f a a' = g b b') {xs : List α}
    {ys : List β} (h : List.Forall₂ R xs ys) {best : Option α} {best' : Option β}
    (hbest : Option.Rel R best best') :
    Option.Rel R
      (xs.foldl (fun best item => match best with
        | none => some item
        | some current => if f item current then some item else best) best)
      (ys.foldl (fun best item => match best with
        | none => some item
        | some current => if g item current then some item else best) best') := by
  induction h generalizing best best' with
  | nil => exact hbest
  | @cons a b xs ys hab _ ih =>
    apply ih
    cases hbest with
    | none => exact .some hab
    | @some current current' hcurrent =>
      simp only [hexceeds a current b current' hab hcurrent]
      split
      · exact .some hab
      · exact .some hcurrent

theorem firstGreatest?_rel (hexceeds : ∀ a a' b b', R a b → R a' b' → f a a' = g b b') {xs : List α}
    {ys : List β} (h : List.Forall₂ R xs ys) :
    Option.Rel R (firstGreatest? f xs) (firstGreatest? g ys) :=
  foldl_rel hexceeds h .none

theorem mem_of_firstGreatest? {xs : List α} {a : α} (h : firstGreatest? f xs = some a) : a ∈ xs := by
  have hself : List.Forall₂ (fun a b => a = b ∧ b ∈ xs) xs xs := by
    rw [List.forall₂_same]
    exact fun a ha => ⟨rfl, ha⟩
  have hrel := firstGreatest?_rel (f := f) (g := f) (by rintro a a' b b' ⟨rfl, _⟩ ⟨rfl, _⟩; rfl) hself
  rw [h] at hrel
  cases hrel with
  | some hmem => exact hmem.2

/-! ## Domain policies in place of their places -/

def DomainTarget.pattern? : DomainTarget → Option DomainPattern
  | .all => none
  | .pattern p => some p

namespace Profile

variable {p : Profile} {domain : String}

def coveringDomains (p : Profile) (domain : String) : List (DomainRank × DomainPolicy) :=
  p.domains.filterMap fun policy => policy.rule.target.pattern?.bind fun pattern =>
    if pattern.covers domain then some (pattern.rank, policy) else none

/-- The induction is on the end of the domains that is left, from the place `start` on. -/
private theorem candidates_rel {domains : List DomainPolicy} {start : Nat}
    (h : ∀ i, p.domains[start + i]? = domains[i]?) :
    List.Forall₂ (fun a b => a.1 = b.1 ∧ p.domainAt? a.2 = some b.2)
      ((domains.zipIdx start).filterMap fun (policy, index) =>
        match policy.rule.target with
        | .all => none
        | .pattern pattern =>
          if pattern.covers domain then some (pattern.rank, DomainPlace.pattern index) else none)
      (domains.filterMap fun policy => policy.rule.target.pattern?.bind fun pattern =>
        if pattern.covers domain then some (pattern.rank, policy) else none) := by
  induction domains generalizing start with
  | nil => exact .nil
  | cons policy domains ih =>
    have ih := @ih (start + 1) fun i => by
      have hi := h (i + 1)
      rw [List.getElem?_cons_succ] at hi
      rw [← hi]
      congr 1
      omega
    simp only [List.zipIdx_cons, List.filterMap_cons]
    cases ht : policy.rule.target with
    | all => exact ih
    | pattern pattern =>
      by_cases hcovers : pattern.covers domain
      · simp only [DomainTarget.pattern?, Option.bind_some, hcovers, if_true]
        have hfirst := h 0
        rw [Nat.add_zero, List.getElem?_cons_zero] at hfirst
        exact .cons ⟨rfl, hfirst⟩ ih
      · simp only [DomainTarget.pattern?, Option.bind_some, hcovers]
        exact ih

/-- The policy that counts for a domain is the first greatest of those that cover it, or the one for all domains. -/
theorem resolveDomain_eq (p : Profile) (domain : String) :
    p.resolveDomain domain =
      ((firstGreatest? (fun a b => a.1.exceeds b.1) (p.coveringDomains domain)).map Prod.snd <|> p.defaultDomain) := by
  have hrel := firstGreatest?_rel (f := fun a b => a.1.exceeds b.1) (g := fun a b => a.1.exceeds b.1)
    (by rintro a a' b b' ⟨h, -⟩ ⟨h', -⟩; rw [h, h']) (@candidates_rel p domain p.domains 0 (by simp))
  change Option.Rel _ (firstGreatest? _ (p.domainCandidates domain)) (firstGreatest? _ (p.coveringDomains domain))
    at hrel
  unfold resolveDomain domainPlace?
  generalize firstGreatest? _ (p.domainCandidates domain) = place? at hrel ⊢
  generalize firstGreatest? _ (p.coveringDomains domain) = policy? at hrel ⊢
  cases hrel with
  | none => cases hdefault : p.defaultDomain <;> simp [domainAt?, hdefault]
  | some h => simpa using h.2

end Profile

end TrafficPolicy
