import TrafficPolicy.Proofs.Profile.Chains
import TrafficPolicy.Proofs.Profile.Withdrawal

/-!
# Emptying a slot

A slot that is emptied everywhere holds nothing in effect anywhere, for whichever url: it is emptied in the default and
in every policy, and each policy is linked to the default that has been emptied. A slot that is emptied for one target
shows what the default has there. No other slot shows anything else than before.
-/

namespace TrafficPolicy

open UrlPolicy (Obtained)

namespace UrlPolicy

variable {registry : Registry} {p before after : UrlPolicy} {slot : Slot}

/-- The target of a policy has been read from its text. -/
theorem Obtained.read_text (h : Obtained registry p) :
    ∀ target ∈ p.rule.target, UrlPattern.read target.text = .ok target := by
  induction h with
  | parsed hreads =>
    obtain ⟨parts, mid, hparts, htarget⟩ := hreads
    have hnone : parts.target = none := by
      have hkeeps := registry.readsParts_url.keeps (I := fun rule => rule.target = none) (Q := fun _ => True) (by
        rintro rule next word words rest policy hrule - - - hplace
        rcases UrlRule.placePolicy_cases hplace with ⟨mode, -, rfl⟩ | ⟨s, o, -, rfl⟩ <;> exact hrule)
        (fun _ _ => trivial) rfl hparts
      exact hkeeps.1
    obtain ⟨-, ⟨-, hrule⟩ | ⟨text, pattern, -, hread, hrule⟩⟩ := UrlRule.reads_readTarget.mp htarget <;> cases hrule
    · simp [hnone]
    · rintro _ ⟨⟩
      rwa [(UrlPattern.parts_of_read hread).1]
  | @update p other _ _ ih _ =>
    have htarget : (p.rule.update other.rule).target = p.rule.target := by
      unfold UrlRule.update
      split <;> rfl
    exact htarget ▸ ih
  | remove s _ ih => exact ih
  | link _ _ ih _ => exact ih
  | unlink _ ih => exact ih
  | unmode _ ih => exact ih

/-- One policy is another one in whose chain a slot has been emptied. -/
structure Emptied (slot : Slot) (before after : UrlPolicy) : Prop where
  target : after.rule.target = before.rule.target
  empty : ∀ rule ∈ after.chain, rule.slots.get slot = none
  others : ∀ other, other ≠ slot → after.get other = before.get other

theorem Emptied.of_chain (h : after.chain = before.chain.map fun rule => rule.remove slot) :
    Emptied slot before after := by
  refine ⟨?_, fun rule hrule => ?_, fun other hother => ?_⟩
  · have hrule : after.rule = before.rule.remove slot := (List.cons.inj h).1
    rw [hrule]
    rfl
  · rw [h] at hrule
    obtain ⟨old, -, rfl⟩ := List.mem_map.mp hrule
    exact Slots.get_put_self _ _ _
  · rw [get, h, List.findSome?_map]
    exact congrArg (before.chain.findSome? ·) (funext fun rule => Slots.get_put_of_ne _ _ hother)

theorem Emptied.get_eq_none (h : Emptied slot before after) : after.get slot = none :=
  List.findSome?_eq_none_iff.mpr h.empty

end UrlPolicy

namespace Profile

open UrlPolicy (Emptied)

variable {registry : Registry} {p q : Profile}

/-- Policies that are related one by one, each to one for the same target, count for the same urls. -/
theorem resolveUrl_paired {R : UrlPolicy → UrlPolicy → Prop} (htarget : ∀ a b, R a b → b.rule.target = a.rule.target)
    (hurls : List.Forall₂ R p.urls q.urls) (hdefault : Option.Rel R p.defaultUrl q.defaultUrl) (url : String) :
    Option.Rel R (p.resolveUrl url) (q.resolveUrl url) := by
  have hcandidates : List.Forall₂ (fun a b => a.1 = b.1 ∧ R a.2 b.2)
      (p.urlCandidates (Url.read url)) (q.urlCandidates (Url.read url)) := by
    refine List.rel_filterMap (fun a b hab => ?_) hurls
    rw [htarget a b hab]
    cases a.rule.target with
    | none => exact .none
    | some target =>
      simp only [Option.bind_some]
      split
      · exact .some ⟨rfl, hab⟩
      · exact .none
  have hbest := firstGreatest?_rel (f := fun a b => a.1.exceeds b.1) (g := fun a b => a.1.exceeds b.1)
    (by rintro a a' b b' ⟨hab, -⟩ ⟨hab', -⟩; rw [hab, hab']) hcandidates
  unfold resolveUrl
  generalize firstGreatest? _ (p.urlCandidates (Url.read url)) = best at hbest
  generalize firstGreatest? _ (q.urlCandidates (Url.read url)) = best' at hbest
  cases hbest with
  | none => exact hdefault
  | some hrel => exact .some hrel.2

/-! ## Everywhere -/

theorem WellLinked.chain_default (h : p.WellLinked) {default : UrlPolicy} (hdefault : p.defaultUrl = some default) :
    default.chain = [default.rule] := by
  rw [UrlPolicy.chain, h.default_alone default hdefault]

theorem WellLinked.chain_of_mem (h : p.WellLinked) {url : UrlPolicy} (hurl : url ∈ p.urls) :
    url.chain = url.rule :: (p.defaultUrl.map UrlPolicy.rule).toList := by
  rw [UrlPolicy.chain, h.linked url hurl, h.inherited_eq]

theorem WellLinked.emptied_all (h : p.WellLinked) (removal : Removal) (hall : removal.target = .all) (url : String) :
    Option.Rel (Emptied removal.slot) (p.resolveUrl url) ((p.applyRemoval removal).resolveUrl url) := by
  have hlater := wellLinked_applyRemoval h removal
  let trim (url : UrlPolicy) : UrlPolicy := url.mapRule fun rule => rule.remove removal.slot
  let link (url : UrlPolicy) : UrlPolicy := url.link (p.defaultUrl.map trim)
  have hurls : (p.applyRemoval removal).urls = (p.urls.map trim).map link := by
    simp only [applyRemoval, hall]
    rfl
  have hdefault : (p.applyRemoval removal).defaultUrl = p.defaultUrl.map trim := by
    simp only [applyRemoval, hall]
    rfl
  refine resolveUrl_paired (fun _ _ hemptied => hemptied.target) ?_ ?_ url
  · rw [hurls, List.map_map, List.forall₂_map_right_iff, List.forall₂_same]
    intro url hurl
    refine .of_chain ?_
    have hmem : link (trim url) ∈ (p.applyRemoval removal).urls := by
      rw [hurls]
      exact List.mem_map_of_mem (List.mem_map_of_mem hurl)
    rw [Function.comp_apply, hlater.chain_of_mem hmem, h.chain_of_mem hurl, hdefault]
    cases p.defaultUrl <;> rfl
  · rw [hdefault]
    cases hd : p.defaultUrl with
    | none => exact .none
    | some default =>
      refine .some (.of_chain ?_)
      rw [hlater.chain_default (by rw [hdefault, hd]; rfl), h.chain_default hd]
      rfl

/-! ## For one target -/

variable {keyword text command : String} {slot : Slot}

theorem Reachable.urlKey?_eq (h : Reachable registry p) {url : UrlPolicy} (hurl : url ∈ p.urls)
    (htext : url.target? = some text) : ∃ pattern, UrlPattern.read text = .ok pattern ∧ urlKey? text = some text := by
  obtain ⟨pattern, hpattern, rfl⟩ := Option.map_eq_some_iff.mp htext
  have hread := (h.urlsObtained.urls url hurl).read_text pattern hpattern
  exact ⟨pattern, hread, by rw [urlKey?, hread]⟩

theorem WellLinked.get_remove (h : p.WellLinked) {url : UrlPolicy} (hurl : url ∈ p.urls) (slot : Slot) :
    (url.mapRule fun rule => rule.remove slot).get slot = p.defaultUrl.bind fun default => default.get slot := by
  have hempty : (url.rule.remove slot).slots.get slot = none := Slots.get_put_self _ _ _
  have hchain : (url.mapRule fun rule => rule.remove slot).chain = url.rule.remove slot :: p.inherited :=
    congrArg (url.rule.remove slot :: ·) (h.linked url hurl)
  rw [UrlPolicy.get, hchain, List.findSome?_cons_of_isNone (by simp [hempty])]
  cases hdefault : p.defaultUrl <;> simp [inherited, hdefault, UrlPolicy.get]

theorem get_remove_of_ne (url : UrlPolicy) {other : Slot} (h : other ≠ slot) :
    (url.mapRule fun rule => rule.remove slot).get other = url.get other := by
  have hkept : (url.rule.remove slot).slots.get other = url.rule.slots.get other := Slots.get_put_of_ne _ _ h
  simp only [UrlPolicy.get, UrlPolicy.chain, UrlPolicy.mapRule, List.findSome?_cons, hkept]

theorem read_removal_of_words (hurl : registry.builder? "url" = some .url) (hslot : Slot.ofKeyword? keyword = some slot)
    {target : TargetName} (hwords : Text.words command = ["url", "remove", keyword, text])
    (htarget : readTargetName text = .ok target) :
    registry.read command = .ok (.remove ⟨keyword, slot, target, hslot⟩) := by
  rw [Registry.read_eq_ok_iff, hwords, Registry.builds_url hurl, Registry.reads_urlRemoval]
  exact reads_removal.mpr ⟨⟨keyword, slot, target, hslot⟩, text, rfl, htarget, rfl⟩

/-- A slot that is emptied everywhere is empty in the whole chain of what counts for a url, which is for the same target
as before. A slot that is emptied for one target is that of the default there, and all other policies are as they were.
No other slot shows anything else than before. -/
theorem Reachable.empties (h : Reachable registry p) (hurl : registry.builder? "url" = some .url)
    (hslot : Slot.ofKeyword? keyword = some slot) (shuffler : Shuffler) :
    (∀ command, Text.words command = ["url", "remove", keyword, "all"] →
      ∃ q, p.apply registry shuffler command = .ok q ∧
        ∀ url, Option.Rel (Emptied slot) (p.resolveUrl url) (q.resolveUrl url)) ∧
    ∀ before url after text command, p.urls = before ++ url :: after → url.target? = some text → text ≠ "all" →
      Text.words command = ["url", "remove", keyword, text] →
      ∃ later, p.apply registry shuffler command = .ok { p with urls := before ++ later :: after } ∧
        later.rule.target = url.rule.target ∧
        later.get slot = (p.defaultUrl.bind fun default => default.get slot) ∧
        ∀ other, other ≠ slot → later.get other = url.get other := by
  refine ⟨fun command hwords => ?_, fun before url after text command hurls htext hall hwords => ?_⟩
  · have hread := read_removal_of_words hurl hslot hwords (rfl : readTargetName "all" = .ok .all)
    exact ⟨_, apply_eq_ok_iff.mpr ⟨_, hread, rfl⟩, h.wellLinked.emptied_all ⟨keyword, slot, .all, hslot⟩ rfl⟩
  · have hmem : url ∈ p.urls := by simp [hurls]
    obtain ⟨pattern, hpattern, hkey⟩ := h.urlKey?_eq hmem htext
    have hname : readTargetName text = .ok (.named text) := by
      simp [readTargetName, TargetName.ofText, hall, hpattern, Except.map]
    have hdistinct := h.wellLinked.distinct
    rw [hurls] at hdistinct
    have hmap := map_key_eq hdistinct fun url => url.mapRule fun rule => rule.remove slot
    rw [htext, ← hurls] at hmap
    refine ⟨url.mapRule fun rule => rule.remove slot, ?_, rfl, h.wellLinked.get_remove hmem slot,
      fun other => get_remove_of_ne url⟩
    refine apply_eq_ok_iff.mpr ⟨_, read_removal_of_words hurl hslot hwords hname, ?_⟩
    simp only [applyPolicy, applyRemoval, hkey, mapUrl, hmap]

private def proxyAll : UrlRule := { slots := { content := some .proxy } }

private def cacheHost : UrlRule :=
  { slots := { content := some .cache }, target := some ⟨"g.cn", some .host, "", []⟩ }

private theorem read_proxyAll : Registry.standard.read "url proxy" = .ok (.url proxyAll) := by
  have hw : Text.words "url proxy" = ["url", "proxy"] := by decide
  have hb : Registry.standard.builder? "proxy" = some (.leaf (.marker .proxy)) :=
    Registry.builder?_standard_iff.mpr (.marker .proxy)
  exact UrlRule.read_part hw (by decide) ((Registry.builds_leaf hb).mpr ⟨rfl, rfl⟩) rfl

private theorem read_cacheHost : Registry.standard.read "url cache g.cn" = .ok (.url cacheHost) := by
  have hw : Text.words "url cache g.cn" = ["url", "cache", "g.cn"] := by decide
  have hb : Registry.standard.builder? "cache" = some (.leaf (.marker .cache)) :=
    Registry.builder?_standard_iff.mpr (.marker .cache)
  exact UrlRule.read_part_target hw (by decide) ((Registry.builds_leaf hb).mpr ⟨rfl, rfl⟩) rfl (by decide) (by decide)

/-- The host is defined before the default. Another keyword of the slot empties it: everywhere, or for the host, which
then shows the content of the default. -/
theorem Reachable.empties_content :
    ∃ p q url later, Reachable .standard p ∧ p.resolveUrl "g.cn/a" = some url ∧ url.get .content = some .cache ∧
      p.apply .standard .inOrder "url remove map all" = .ok q ∧
      (∃ empty, q.resolveUrl "g.cn/a" = some empty ∧ empty.rule.target = url.rule.target ∧ empty.get .content = none) ∧
      p.apply .standard .inOrder "url remove status g.cn" = .ok { p with urls := [later] } ∧
      later.get .content = some .proxy := by
  let url : UrlPolicy := ⟨cacheHost, [proxyAll]⟩
  let p : Profile := { defaultUrl := some ⟨proxyAll, []⟩, urls := [url] }
  have hp : Reachable .standard p :=
    (Reachable.fresh.apply (q := { urls := [⟨cacheHost, []⟩] }) .inOrder
      (apply_eq_ok_iff.mpr ⟨_, read_cacheHost, rfl⟩)).apply .inOrder (apply_eq_ok_iff.mpr ⟨_, read_proxyAll, rfl⟩)
  have hresolve : p.resolveUrl "g.cn/a" = some url := by decide +kernel
  have hmap : Slot.ofKeyword? "map" = some .content := rfl
  have hstatus : Slot.ofKeyword? "status" = some .content := rfl
  obtain ⟨heverywhere, -⟩ := hp.empties Registry.builder?_url hmap .inOrder
  obtain ⟨-, htargeted⟩ := hp.empties Registry.builder?_url hstatus .inOrder
  obtain ⟨q, happly, hrel⟩ := heverywhere "url remove map all" (by decide)
  obtain ⟨later, happly', -, hlater, -⟩ := htargeted [] url [] "g.cn" "url remove status g.cn" rfl rfl (by decide)
    (by decide)
  have hempty := hrel "g.cn/a"
  rw [hresolve] at hempty
  obtain ⟨empty, hq, hemptied⟩ : ∃ empty, q.resolveUrl "g.cn/a" = some empty ∧ Emptied .content url empty := by
    generalize q.resolveUrl "g.cn/a" = empty? at hempty
    cases hempty with
    | some hemptied => exact ⟨_, rfl, hemptied⟩
  exact ⟨p, q, url, later, hp, hresolve, rfl, happly, ⟨empty, hq, hemptied.target, hemptied.get_eq_none⟩, happly',
    hlater⟩

end Profile

end TrafficPolicy
