import Mathlib.Data.List.MinMax
import Mathlib.Data.Prod.Lex
import TrafficPolicy.Proofs.Profile.Definitions
import TrafficPolicy.Proofs.Profile.Inheritance

/-!
# Which policy counts for a url

The policies are tried in their order, and one takes the place of an earlier one only if it is more specific. So the
one that counts is the most specific of those that cover the url, and of several that are as specific the one that was
defined first. The default counts where no target covers the url.
-/

namespace TrafficPolicy

/-! ## The first of the greatest -/

section FirstGreatest

variable {α β κ : Type} [LinearOrder κ] {exceeds : α → α → Bool} {key : α → κ} {number : α → ℕ} {items : List α}
  {a : α}

theorem firstGreatest?_eq_argmax (hexceeds : ∀ a b, exceeds a b ↔ key b < key a) (items : List α) :
    firstGreatest? exceeds items = items.argmax key := by
  induction items using List.reverseRecOn with
  | nil => rfl
  | append_singleton items item ih =>
    rw [List.argmax_concat, ← ih]
    unfold firstGreatest?
    rw [List.foldl_append]
    generalize items.foldl _ none = best?
    cases best? with
    | none => rfl
    | some best => simp only [List.foldl_cons, List.foldl_nil, hexceeds]

theorem firstGreatest?_eq_none_iff (hexceeds : ∀ a b, exceeds a b ↔ key b < key a) :
    firstGreatest? exceeds items = none ↔ items = [] := by
  rw [firstGreatest?_eq_argmax hexceeds, List.argmax_eq_none]

/-- The first greatest member is greater than those before it, and no member after it is greater. -/
theorem firstGreatest?_eq_some_iff_split (hexceeds : ∀ a b, exceeds a b ↔ key b < key a) :
    firstGreatest? exceeds items = some a ↔ ∃ before after, items = before ++ a :: after ∧
      (∀ b ∈ before, key b < key a) ∧ ∀ b ∈ after, key b ≤ key a := by
  rw [firstGreatest?_eq_argmax hexceeds]
  constructor
  · intro hbest
    induction items using List.reverseRecOn with
    | nil => cases hbest
    | append_singleton items item ih =>
      rw [List.argmax_concat] at hbest
      cases hlast : items.argmax key with
      | none =>
        rw [hlast] at hbest
        obtain rfl := Option.some.inj hbest
        rw [List.argmax_eq_none.mp hlast]
        exact ⟨[], [], rfl, by simp, by simp⟩
      | some best =>
        rw [hlast] at hbest
        dsimp only at hbest
        split at hbest
        · rename_i hgreater
          obtain rfl := Option.some.inj hbest
          exact ⟨items, [], rfl, fun b hb => (List.le_of_mem_argmax hb hlast).trans_lt hgreater, by simp⟩
        · rename_i hnot
          obtain rfl := Option.some.inj hbest
          obtain ⟨before, after, rfl, hbefore, hafter⟩ := ih hlast
          refine ⟨before, after ++ [item], by simp, hbefore, fun b hb => ?_⟩
          rcases List.mem_append.mp hb with hb | hb
          · exact hafter b hb
          · exact List.mem_singleton.mp hb ▸ not_lt.mp hnot
  · rintro ⟨before, after, rfl, hbefore, hafter⟩
    induction after using List.reverseRecOn with
    | nil =>
      rw [List.argmax_concat]
      cases hbest : before.argmax key with
      | none => rfl
      | some best => exact if_pos (hbefore best (List.argmax_mem hbest))
    | append_singleton after item ih =>
      rw [← List.cons_append, ← List.append_assoc, List.argmax_concat,
        ih fun b hb => hafter b (List.mem_append_left _ hb)]
      exact if_neg (hafter item (by simp)).not_gt

/-- The same for a list of which some members are left out and the others looked at. -/
theorem firstGreatest?_filterMap_eq_some_iff (hexceeds : ∀ a b, exceeds a b ↔ key b < key a) {look : β → Option α}
    {items : List β} :
    firstGreatest? exceeds (items.filterMap look) = some a ↔ ∃ before item after, items = before ++ item :: after ∧
      look item = some a ∧ (∀ other ∈ before, ∀ b ∈ look other, key b < key a) ∧
      ∀ other ∈ after, ∀ b ∈ look other, key b ≤ key a := by
  rw [firstGreatest?_eq_some_iff_split hexceeds]
  constructor
  · rintro ⟨before, after, hsplit, hbefore, hafter⟩
    obtain ⟨first, rest, rfl, rfl, hrest⟩ := List.filterMap_eq_append_iff.mp hsplit
    obtain ⟨skipped, item, last, rfl, hskipped, hitem, rfl⟩ := List.filterMap_eq_cons_iff.mp hrest
    refine ⟨first ++ skipped, item, last, by simp, hitem, fun other hother b hb => ?_, fun other hother b hb =>
      hafter b (List.mem_filterMap.mpr ⟨other, hother, hb⟩)⟩
    rcases List.mem_append.mp hother with hfirst | hskip
    · exact hbefore b (List.mem_filterMap.mpr ⟨other, hfirst, hb⟩)
    · rw [hskipped other hskip] at hb
      cases hb
  · rintro ⟨before, item, after, rfl, hitem, hbefore, hafter⟩
    refine ⟨before.filterMap look, after.filterMap look, by simp [hitem], fun b hb => ?_, fun b hb => ?_⟩
    · obtain ⟨other, hother, hlook⟩ := List.mem_filterMap.mp hb
      exact hbefore other hother b hlook
    · obtain ⟨other, hother, hlook⟩ := List.mem_filterMap.mp hb
      exact hafter other hother b hlook

/-- Among members that are numbered in their order, the first greatest one has the lowest number of the greatest. -/
theorem firstGreatest?_eq_some_iff (hexceeds : ∀ a b, exceeds a b ↔ key b < key a)
    (hnumbered : items.Pairwise fun a b => number a < number b) :
    firstGreatest? exceeds items = some a ↔
      a ∈ items ∧ ∀ b ∈ items, key b < key a ∨ key b = key a ∧ number a ≤ number b := by
  rw [firstGreatest?_eq_some_iff_split hexceeds]
  constructor
  · rintro ⟨before, after, rfl, hbefore, hafter⟩
    obtain ⟨-, hrest, -⟩ := List.pairwise_append.mp hnumbered
    refine ⟨by simp, fun b hb => ?_⟩
    rcases List.mem_append.mp hb with hb | hb
    · exact .inl (hbefore b hb)
    · rcases List.mem_cons.mp hb with rfl | hb
      · exact .inr ⟨rfl, Nat.le_refl _⟩
      · exact (hafter b hb).lt_or_eq.imp_right fun heq => ⟨heq, (List.rel_of_pairwise_cons hrest hb).le⟩
  · rintro ⟨hmem, hall⟩
    obtain ⟨before, after, rfl⟩ := List.append_of_mem hmem
    obtain ⟨-, -, hacross⟩ := List.pairwise_append.mp hnumbered
    refine ⟨before, after, rfl, fun b hb => ?_, fun b hb => ?_⟩
    · -- A member before has a lower number, so it is not as great.
      exact (hall b (by simp [hb])).resolve_right fun hsame =>
        (hacross b hb a List.mem_cons_self).not_ge hsame.2
    · exact (hall b (by simp [hb])).elim le_of_lt fun hsame => hsame.1.le

end FirstGreatest

/-! ## What is more specific -/

/-- The measures of specificity in one order, the most important one first. -/
def Specificity.key (s : Specificity) : Bool ×ₗ Bool ×ₗ ℕ ×ₗ ℕ :=
  toLex (s.hasDomain, toLex (s.plainDomain, toLex (s.pathBytes, s.queryPairs)))

theorem Specificity.exceeds_iff (a b : Specificity) : a.exceeds b ↔ b.key < a.key := by
  obtain ⟨domain, plain, path, query⟩ := a
  obtain ⟨domain', plain', path', query'⟩ := b
  simp only [exceeds, key, Prod.Lex.toLex_lt_toLex, Bool.lt_iff]
  by_cases hdomain : domain = domain'
  · by_cases hplain : plain = plain'
    · by_cases hpath : path = path'
      · simp [hdomain, hplain, hpath]
      · simp [hdomain, hplain, hpath, Ne.symm hpath]
    · cases plain <;> cases plain' <;> simp_all
  · cases domain <;> cases domain' <;> simp_all

theorem UrlRule.covers_of_target {rule : UrlRule} {target : UrlPattern} (h : rule.target = some target) (url : String) :
    rule.covers url = target.covers url := by
  rw [UrlRule.covers, h, Option.all_some]

/-- One policy counts before another one, after some policies: it is more specific, or it is as specific and its target
was defined earlier. -/
def UrlPolicy.Precedes (policies : List Policy) (a b : UrlPolicy) : Prop :=
  ∃ s ∈ a.rule.target, ∃ t ∈ b.rule.target, t.specificity.key < s.specificity.key ∨
    t.specificity.key = s.specificity.key ∧
      ∃ i ∈ definedAt? s.text policies, ∃ j ∈ definedAt? t.text policies, i < j

def UrlPolicy.definedAt (policies : List Policy) (policy : UrlPolicy) : ℕ :=
  (policy.target?.bind fun target => definedAt? target policies).getD 0

namespace Profile

variable {registry : Registry} {policies : List Policy} {p : Profile} {policy : UrlPolicy} {url : String}

theorem mem_urlCandidates_iff {candidate : Specificity × UrlPolicy} :
    candidate ∈ p.urlCandidates (Url.read url) ↔ candidate.2 ∈ p.urls ∧
      ∃ target ∈ candidate.2.rule.target, target.covers url ∧ candidate.1 = target.specificity := by
  obtain ⟨specificity, policy⟩ := candidate
  simp only [urlCandidates, List.mem_filterMap, Option.bind_eq_some_iff, Option.ite_none_right_eq_some,
    Option.some.injEq, Prod.mk.injEq]
  constructor
  · rintro ⟨policy, hmem, target, htarget, hcovers, rfl, rfl⟩
    exact ⟨hmem, target, htarget, hcovers, rfl⟩
  · rintro ⟨hmem, target, htarget, hcovers, rfl⟩
    exact ⟨policy, hmem, target, htarget, hcovers, rfl, rfl⟩

theorem Formed.exists_definedAt (h : Formed registry policies p) (hmem : policy ∈ p.urls) :
    ∃ target ∈ policy.rule.target, definedAt? target.text policies = some (policy.definedAt policies) := by
  obtain ⟨target, htarget⟩ := Option.isSome_iff_exists.mp (h.wellLinked.targeted policy hmem)
  have htext : policy.target? = some target.text := by rw [UrlPolicy.target?, htarget, Option.map_some]
  have hdefined : (definedAt? target.text policies).isSome :=
    (h.ordered.mem_iff _).mp (List.mem_filterMap.mpr ⟨policy, hmem, htext⟩)
  obtain ⟨i, hi⟩ := Option.isSome_iff_exists.mp hdefined
  exact ⟨target, htarget, by rw [UrlPolicy.definedAt, htext, Option.bind_some, hi, Option.getD_some]⟩

/-- The url policies are numbered in their order. -/
theorem Formed.sorted_urls (h : Formed registry policies p) :
    p.urls.Pairwise fun a b => a.definedAt policies < b.definedAt policies := by
  have hsorted := h.ordered.sorted
  rw [targets, List.pairwise_filterMap] at hsorted
  refine hsorted.imp_of_mem fun {a b} ha hb hlt => ?_
  obtain ⟨s, hs, hi⟩ := h.exists_definedAt ha
  obtain ⟨t, ht, hj⟩ := h.exists_definedAt hb
  obtain ⟨i, hi', j, hj', hij⟩ := hlt s.text (congrArg (Option.map UrlPattern.text) hs) t.text
    (congrArg (Option.map UrlPattern.text) ht)
  obtain rfl := Option.some.inj (hi.symm.trans hi')
  obtain rfl := Option.some.inj (hj.symm.trans hj')
  exact hij

theorem Formed.eq_of_definedAt_eq (h : Formed registry policies p) {a b : UrlPolicy} (ha : a ∈ p.urls)
    (hb : b ∈ p.urls) (hab : a.definedAt policies = b.definedAt policies) : a = b := by
  have hnodup : (p.urls.map fun url => url.definedAt policies).Nodup :=
    List.pairwise_map.mpr (h.sorted_urls.imp Nat.ne_of_lt)
  exact List.inj_on_of_nodup_map hnodup ha hb hab

theorem Formed.sorted_candidates (h : Formed registry policies p) (url : Url) :
    (p.urlCandidates url).Pairwise fun a b => a.2.definedAt policies < b.2.definedAt policies := by
  rw [urlCandidates, List.pairwise_filterMap]
  refine h.sorted_urls.imp fun {a b} hlt c hc d hd => ?_
  obtain ⟨_, -, hc⟩ := Option.bind_eq_some_iff.mp hc
  obtain ⟨_, -, hd⟩ := Option.bind_eq_some_iff.mp hd
  obtain ⟨-, hc⟩ := Option.ite_none_right_eq_some.mp hc
  obtain ⟨-, hd⟩ := Option.ite_none_right_eq_some.mp hd
  obtain rfl := Option.some.inj hc
  obtain rfl := Option.some.inj hd
  exact hlt

/-- What makes a policy the best candidate, in terms of the policies. -/
theorem Formed.best_iff (h : Formed registry policies p) {specificity : Specificity} :
    firstGreatest? (fun a b => a.1.exceeds b.1) (p.urlCandidates (Url.read url)) = some (specificity, policy) ↔
      (policy ∈ p.urls ∧ ∃ target ∈ policy.rule.target, target.covers url ∧ specificity = target.specificity) ∧
        ∀ other ∈ p.urls, other.rule.covers url → other = policy ∨ policy.Precedes policies other := by
  rw [firstGreatest?_eq_some_iff (fun a b => Specificity.exceeds_iff a.1 b.1) (h.sorted_candidates _),
    mem_urlCandidates_iff]
  refine and_congr_right fun ⟨hmem, target, htarget, _, hspecificity⟩ => ?_
  obtain ⟨_, htarget', hnumber⟩ := h.exists_definedAt hmem
  obtain rfl := Option.some.inj (htarget.symm.trans htarget')
  dsimp only at hspecificity
  subst hspecificity
  constructor
  · intro hbest other hother hcovers
    obtain ⟨t, ht, hnumber'⟩ := h.exists_definedAt hother
    rw [UrlRule.covers_of_target ht] at hcovers
    rcases hbest (t.specificity, other) (mem_urlCandidates_iff.mpr ⟨hother, t, ht, hcovers, rfl⟩) with
      hless | ⟨heq, hle⟩
    · exact .inr ⟨target, htarget, t, ht, .inl hless⟩
    · rcases hle.eq_or_lt with hsame | hlt
      · exact .inl (h.eq_of_definedAt_eq hother hmem hsame.symm)
      · exact .inr ⟨target, htarget, t, ht, .inr ⟨heq, _, hnumber, _, hnumber', hlt⟩⟩
  · rintro hall ⟨_, other⟩ hcandidate
    obtain ⟨hother, t, ht, hcovers, rfl⟩ := mem_urlCandidates_iff.mp hcandidate
    rw [← UrlRule.covers_of_target ht] at hcovers
    rcases hall other hother hcovers with rfl | ⟨s, hs, t', ht', hbefore⟩
    · obtain rfl := Option.some.inj (htarget.symm.trans ht)
      exact .inr ⟨rfl, Nat.le_refl _⟩
    · obtain rfl := Option.some.inj (htarget.symm.trans hs)
      obtain rfl := Option.some.inj (ht.symm.trans ht')
      refine hbefore.imp_right fun ⟨heq, i, hi, j, hj, hlt⟩ => ⟨heq, ?_⟩
      obtain ⟨_, ht', hnumber'⟩ := h.exists_definedAt hother
      obtain rfl := Option.some.inj (ht.symm.trans ht')
      obtain rfl := Option.some.inj (hnumber.symm.trans hi)
      obtain rfl := Option.some.inj (hnumber'.symm.trans hj)
      exact hlt.le

private def cached (pattern : UrlPattern) : UrlRule :=
  { slots := { content := some .cache }, target := some pattern }

private theorem read_cached {command : String} {pattern : UrlPattern}
    (hw : Text.words command = ["url", "cache", pattern.text]) (hk : pattern.text ∉ UrlRule.keywords)
    (hp : UrlPattern.read pattern.text = .ok pattern) :
    Registry.standard.read command = .ok (.url (cached pattern)) := by
  have hb : Registry.standard.builder? "cache" = some (.leaf (.marker .cache)) :=
    Registry.builder?_standard_iff.mpr (.marker .cache)
  exact UrlRule.read_part_target hw (by decide) ((Registry.builds_leaf hb).mpr ⟨rfl, rfl⟩) rfl hk hp

end Profile

end TrafficPolicy
