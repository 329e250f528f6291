import TrafficPolicy.Proofs.Profile.Placement
import TrafficPolicy.Proofs.Profile.Selection
import TrafficPolicy.Proofs.Target.Covering

/-!
# Which policy counts for a domain

The names that domain policies are stored under are distinct, so at most one policy without a star covers a domain, and
that one counts. Otherwise the longest one with a star counts, and of several that are as long the one that stands
first. The policy for all domains counts where no pattern covers the domain.
-/

namespace TrafficPolicy

/-! ## Ranks -/

/-- The measures of a rank in one order, the more important one first. -/
def DomainRank.key (rank : DomainRank) : Bool ×ₗ ℕ := toLex (rank.plain, rank.bytes)

theorem DomainRank.exceeds_iff (a b : DomainRank) : a.exceeds b ↔ b.key < a.key := by
  obtain ⟨plain, bytes⟩ := a
  obtain ⟨plain', bytes'⟩ := b
  simp only [exceeds, key, Prod.Lex.toLex_lt_toLex, Bool.lt_iff]
  cases plain <;> cases plain' <;> simp

namespace DomainPolicy

def Starred (policy : DomainPolicy) : Prop := '*' ∈ policy.rule.target.text.toList

/-- The length of the target as it is written. -/
def bytes (policy : DomainPolicy) : ℕ := policy.rule.target.text.utf8ByteSize

def Covers (policy : DomainPolicy) (domain : String) : Prop := policy.rule.target.covers domain

def rank (policy : DomainPolicy) : DomainRank := ⟨!policy.rule.target.text.toList.contains '*', policy.bytes⟩

variable {policy other : DomainPolicy} {domain : String}

theorem key_lt_key_iff : policy.rank.key < other.rank.key ↔
    policy.Starred ∧ ¬other.Starred ∨ (policy.Starred ↔ other.Starred) ∧ policy.bytes < other.bytes := by
  rw [DomainRank.key, DomainRank.key, Prod.Lex.toLex_lt_toLex, Bool.lt_iff]
  by_cases hpolicy : policy.Starred <;> by_cases hother : other.Starred <;>
    simp_all [rank, Starred]

theorem key_le_key_iff : policy.rank.key ≤ other.rank.key ↔
    policy.Starred ∧ ¬other.Starred ∨ (policy.Starred ↔ other.Starred) ∧ policy.bytes ≤ other.bytes := by
  rw [← not_lt, key_lt_key_iff]
  by_cases hpolicy : policy.Starred <;> by_cases hother : other.Starred <;> simp [hpolicy, hother]

end DomainPolicy

namespace Profile

variable {registry : Registry} {p : Profile} {domain : String} {policy : DomainPolicy} {policy? : Option DomainPolicy}

/-- The policy that counts for a domain among those of a profile. -/
inductive Chooses (p : Profile) (domain : String) : Option DomainPolicy → Prop
  | plain {policy : DomainPolicy} : policy ∈ p.domains → policy.Covers domain → ¬policy.Starred →
      Chooses p domain (some policy)
  | starred {before : List DomainPolicy} {policy : DomainPolicy} {after : List DomainPolicy} :
      p.domains = before ++ policy :: after → policy.Covers domain →
      (∀ other ∈ p.domains, other.Covers domain → other.Starred) →
      (∀ other ∈ before, other.Covers domain → other.bytes < policy.bytes) →
      (∀ other ∈ after, other.Covers domain → other.bytes ≤ policy.bytes) → Chooses p domain (some policy)
  | general : (∀ other ∈ p.domains, ¬other.Covers domain) → Chooses p domain p.defaultDomain

/-- The candidates are the policies that cover the domain, with their ranks. -/
theorem coveringDomains_eq (hdomains : ∀ policy ∈ p.domains, policy.name? ≠ none) :
    p.coveringDomains domain = p.domains.filterMap fun policy =>
      if policy.rule.target.covers domain then some (policy.rank, policy) else none := by
  refine List.filterMap_congr fun policy hpolicy => ?_
  obtain ⟨pattern, htarget⟩ := DomainPolicy.target_of_name? (hdomains policy hpolicy)
  have hrank : pattern.rank = policy.rank := by
    have hstar : pattern.isWildcard = pattern.text.toList.contains '*' := by
      rw [Bool.eq_iff_iff, pattern.isWildcard_iff, List.contains_iff_mem]
    rw [DomainPattern.rank, hstar, DomainPolicy.rank, DomainPolicy.bytes, htarget]
    rfl
  rw [htarget, ← hrank]
  rfl

/-- A policy without a star covers the one domain of its name. -/
theorem name?_of_covers (hname : policy.name? ≠ none) (hcovers : policy.Covers domain) (hplain : ¬policy.Starred) :
    policy.name? = some (normalDomain domain.toList) := by
  obtain ⟨pattern, htarget⟩ := DomainPolicy.target_of_name? hname
  unfold DomainPolicy.Covers DomainPolicy.Starred at *
  rw [htarget] at hcovers hplain
  rw [DomainTarget.covers, DomainPattern.covers_iff_of_plain hplain] at hcovers
  rw [DomainPolicy.name?, DomainRule.name?, htarget, DomainTarget.pattern?, Option.map_some, hcovers]

theorem Reachable.eq_of_plain (h : Reachable registry p) {a b : DomainPolicy} (ha : a ∈ p.domains) (hb : b ∈ p.domains)
    (hcovers : a.Covers domain) (hcovers' : b.Covers domain) (hplain : ¬a.Starred) (hplain' : ¬b.Starred) : a = b :=
  List.inj_on_of_nodup_map h.sectioned_domains.distinct ha hb <|
    (name?_of_covers (h.sectioned_domains.targeted a ha) hcovers hplain).trans
      (name?_of_covers (h.sectioned_domains.targeted b hb) hcovers' hplain').symm

/-- What makes a policy the one that counts among those for one pattern. -/
theorem best_iff (hdomains : ∀ policy ∈ p.domains, policy.name? ≠ none) {rank : DomainRank} :
    firstGreatest? (fun a b => a.1.exceeds b.1) (p.coveringDomains domain) = some (rank, policy) ↔
      rank = policy.rank ∧ policy.Covers domain ∧ ∃ before after, p.domains = before ++ policy :: after ∧
        (∀ other ∈ before, other.Covers domain → other.rank.key < policy.rank.key) ∧
        ∀ other ∈ after, other.Covers domain → other.rank.key ≤ policy.rank.key := by
  rw [coveringDomains_eq hdomains,
    firstGreatest?_filterMap_eq_some_iff (fun a b => DomainRank.exceeds_iff a.1 b.1)]
  have hlook : ∀ (item : DomainPolicy) (candidate : DomainRank × DomainPolicy),
      (if item.rule.target.covers domain then some (item.rank, item) else none) = some candidate ↔
        item.Covers domain ∧ (item.rank, item) = candidate := fun item candidate => by
    rw [Option.ite_none_right_eq_some, Option.some.injEq]
    rfl
  simp only [Option.mem_def, hlook]
  constructor
  · rintro ⟨before, item, after, hsplit, ⟨hcovers, heq⟩, hbefore, hafter⟩
    obtain ⟨rfl, rfl⟩ := Prod.mk.inj heq
    exact ⟨rfl, hcovers, before, after, hsplit, fun other hother hother' => hbefore other hother _ ⟨hother', rfl⟩,
      fun other hother hother' => hafter other hother _ ⟨hother', rfl⟩⟩
  · rintro ⟨rfl, hcovers, before, after, hsplit, hbefore, hafter⟩
    refine ⟨before, policy, after, hsplit, ⟨hcovers, rfl⟩, ?_, ?_⟩
    · rintro other hother _ ⟨hother', rfl⟩
      exact hbefore other hother hother'
    · rintro other hother _ ⟨hother', rfl⟩
      exact hafter other hother hother'

theorem resolveDomain_eq_some_of_best (hdomains : ∀ policy ∈ p.domains, policy.name? ≠ none)
    {before after : List DomainPolicy} (hsplit : p.domains = before ++ policy :: after) (hcovers : policy.Covers domain)
    (hbefore : ∀ other ∈ before, other.Covers domain → other.rank.key < policy.rank.key)
    (hafter : ∀ other ∈ after, other.Covers domain → other.rank.key ≤ policy.rank.key) :
    p.resolveDomain domain = some policy := by
  rw [resolveDomain_eq, (best_iff hdomains).mpr ⟨rfl, hcovers, before, after, hsplit, hbefore, hafter⟩]
  rfl

theorem resolveDomain_eq_default (hdomains : ∀ policy ∈ p.domains, policy.name? ≠ none)
    (hnone : ∀ other ∈ p.domains, ¬other.Covers domain) : p.resolveDomain domain = p.defaultDomain := by
  have hempty : p.coveringDomains domain = [] := by
    rw [coveringDomains_eq hdomains, List.filterMap_eq_nil_iff]
    exact fun other hother => if_neg (hnone other hother)
  rw [resolveDomain_eq, hempty]
  rfl

theorem Reachable.resolveDomain_of_chooses (h : Reachable registry p) (hchooses : p.Chooses domain policy?) :
    p.resolveDomain domain = policy? := by
  have hdomains := h.sectioned_domains.targeted
  cases hchooses with
  | @plain policy hmem hcovers hplain =>
    obtain ⟨before, after, hsplit⟩ := List.append_of_mem hmem
    have hdistinct := h.sectioned_domains.distinct
    rw [hsplit] at hdistinct
    obtain ⟨hbefore, hafter⟩ := key_ne hdistinct
    -- Another policy that covers the domain has a star.
    have hless : ∀ other ∈ p.domains, other.name? ≠ policy.name? → other.Covers domain →
        other.rank.key < policy.rank.key := fun other hother hname hcovers' =>
      DomainPolicy.key_lt_key_iff.mpr <| .inl ⟨not_not.mp fun hother' =>
        hname (by rw [h.eq_of_plain hother hmem hcovers' hcovers hother' hplain]), hplain⟩
    refine resolveDomain_eq_some_of_best hdomains hsplit hcovers (fun other hother => ?_)
      fun other hother hcovers' => ?_
    · exact hless other (by simp [hsplit, hother]) (hbefore other hother)
    · exact (hless other (by simp [hsplit, hother]) (hafter other hother) hcovers').le
  | @starred before policy after hsplit hcovers hstarred hbefore hafter =>
    have hpolicy := hstarred policy (by simp [hsplit]) hcovers
    refine resolveDomain_eq_some_of_best hdomains hsplit hcovers (fun other hother hcovers' => ?_)
      fun other hother hcovers' => ?_
    · have hother' := hstarred other (by simp [hsplit, hother]) hcovers'
      exact DomainPolicy.key_lt_key_iff.mpr (.inr ⟨iff_of_true hother' hpolicy, hbefore other hother hcovers'⟩)
    · have hother' := hstarred other (by simp [hsplit, hother]) hcovers'
      exact DomainPolicy.key_le_key_iff.mpr (.inr ⟨iff_of_true hother' hpolicy, hafter other hother hcovers'⟩)
  | general hnone => exact resolveDomain_eq_default hdomains hnone

theorem Reachable.chooses_resolveDomain (h : Reachable registry p) (domain : String) :
    p.Chooses domain (p.resolveDomain domain) := by
  have hdomains := h.sectioned_domains.targeted
  cases hbest : firstGreatest? (fun a b => a.1.exceeds b.1) (p.coveringDomains domain) with
  | none =>
    rw [firstGreatest?_eq_none_iff fun a b => DomainRank.exceeds_iff a.1 b.1, coveringDomains_eq hdomains,
      List.filterMap_eq_nil_iff] at hbest
    have hnone : ∀ other ∈ p.domains, ¬other.Covers domain := fun other hother hcovers => by
      exact Option.some_ne_none _ ((if_pos hcovers).symm.trans (hbest other hother))
    rw [resolveDomain_eq_default hdomains hnone]
    exact .general hnone
  | some best =>
    obtain ⟨rank, policy⟩ := best
    obtain ⟨-, hcovers, before, after, hsplit, hbefore, hafter⟩ := (best_iff hdomains).mp hbest
    rw [resolveDomain_eq_some_of_best hdomains hsplit hcovers hbefore hafter]
    by_cases hstarred : policy.Starred
    · -- No policy that covers the domain comes before one with a star without having a star itself.
      have hall : ∀ other ∈ p.domains, other.Covers domain → other.Starred := by
        intro other hother hcovers'
        rw [hsplit, List.mem_append, List.mem_cons] at hother
        rcases hother with hother | rfl | hother
        · exact (DomainPolicy.key_le_key_iff.mp (hbefore other hother hcovers').le).elim And.left fun hsame =>
            hsame.1.mpr hstarred
        · exact hstarred
        · exact (DomainPolicy.key_le_key_iff.mp (hafter other hother hcovers')).elim And.left fun hsame =>
            hsame.1.mpr hstarred
      refine .starred hsplit hcovers hall (fun other hother hcovers' => ?_) fun other hother hcovers' => ?_
      · exact (DomainPolicy.key_lt_key_iff.mp (hbefore other hother hcovers')).elim
          (fun hplain => absurd hstarred hplain.2) And.right
      · exact (DomainPolicy.key_le_key_iff.mp (hafter other hother hcovers')).elim
          (fun hplain => absurd hstarred hplain.2) And.right
    · exact .plain (by simp [hsplit]) hcovers hstarred

/-- The names of the domain policies are distinct, so at most one without a star covers a domain. That one counts for
it, otherwise the first of the longest with a star, otherwise the policy for all domains. -/
theorem Reachable.resolveDomain_eq_iff_chooses (h : Reachable registry p) (domain : String) :
    (p.domains.map DomainPolicy.key).Nodup ∧
      (∀ a ∈ p.domains, ∀ b ∈ p.domains, a.Covers domain → b.Covers domain → ¬a.Starred → ¬b.Starred → a = b) ∧
      (∀ policy ∈ p.defaultDomain, policy.rule.target = .all) ∧
      ∀ policy?, p.resolveDomain domain = policy? ↔ p.Chooses domain policy? := by
  refine ⟨?_, fun a ha b hb hcovers hcovers' => h.eq_of_plain ha hb hcovers hcovers', fun policy hpolicy => ?_,
    fun policy? => ⟨?_, h.resolveDomain_of_chooses⟩⟩
  · have hdistinct := h.sectioned_domains.distinct
    rw [List.map_congr_left fun policy hpolicy =>
      DomainPolicy.name?_eq_some_key (h.sectioned_domains.targeted policy hpolicy)] at hdistinct
    exact .of_map some (by rwa [List.map_map])
  · have hname := h.sectioned_domains.general policy hpolicy
    unfold DomainPolicy.name? DomainRule.name? at hname
    cases htarget : policy.rule.target with
    | all => rfl
    | pattern pattern =>
      rw [htarget] at hname
      cases hname
  · rintro rfl
    exact h.chooses_resolveDomain domain

/-- The domain is defined again in another spelling. One policy is stored for it, which counts for a third spelling. -/
theorem Reachable.resolveDomain_eq_iff_chooses_spelled : ∃ p, Reachable .standard p ∧
    p.commands = ["domain A.cn.", "domain b.cn"] ∧
      (p.resolveDomain "a.CN").map (fun policy => policy.rule.command) = some "domain A.cn." := by
  let first : DomainRule := domainRule ⟨"a.cn", .exact "a.cn".toList, rfl⟩
  let second : DomainRule := domainRule ⟨"b.cn", .exact "b.cn".toList, rfl⟩
  let third : DomainRule := domainRule ⟨"A.cn.", .exact "a.cn".toList, rfl⟩
  have hfirst : Registry.standard.read "domain a.cn" = .ok (.domain first) :=
    read_domainRule (by decide) (by decide) (by decide) (by decide)
  have hsecond : Registry.standard.read "domain b.cn" = .ok (.domain second) :=
    read_domainRule (by decide) (by decide) (by decide) (by decide)
  have hthird : Registry.standard.read "domain A.cn." = .ok (.domain third) :=
    read_domainRule (by decide) (by decide) (by decide) (by decide)
  let p : Profile := { domains := [.ofRule .inOrder third, .ofRule .inOrder second] }
  have hp : Reachable .standard p :=
    (((Reachable.fresh.apply (q := { domains := [.ofRule .inOrder first] }) .inOrder
      (apply_eq_ok_iff.mpr ⟨_, hfirst, rfl⟩)).apply
        (q := { domains := [.ofRule .inOrder first, .ofRule .inOrder second] }) .inOrder
        (apply_eq_ok_iff.mpr ⟨_, hsecond, congrArg Except.ok (by decide)⟩)).apply .inOrder
      (apply_eq_ok_iff.mpr ⟨_, hthird, congrArg Except.ok (by decide)⟩))
  obtain ⟨-, -, -, hchooses⟩ := hp.resolveDomain_eq_iff_chooses "a.CN"
  have hcovers : (DomainPolicy.ofRule .inOrder third).Covers "a.CN" := by
    unfold DomainPolicy.Covers
    decide
  have hplain : ¬(DomainPolicy.ofRule .inOrder third).Starred := by
    unfold DomainPolicy.Starred
    decide
  have hresolve := (hchooses _).mpr (.plain List.mem_cons_self hcovers hplain)
  exact ⟨p, hp, by decide, by rw [hresolve]; decide⟩

end Profile

end TrafficPolicy
