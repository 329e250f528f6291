import TrafficPolicy.Profile.Basic

/-!
# Patches

A rule in update mode is a patch: it leaves what it does not fill. Patches compose, those that fill different slots can
change places, and a slot that a patch leaves shows what it showed before, its own or inherited.
-/

namespace TrafficPolicy

namespace Slots

theorem onto_assoc (a b c : Slots) : (a.onto b).onto c = a.onto (b.onto c) := by
  refine ext_get fun s => ?_
  simp only [get_onto]
  cases a.get s <;> rfl

def Disjoint (a b : Slots) : Prop :=
  ∀ s, a.get s = none ∨ b.get s = none

theorem Disjoint.onto_comm {a b : Slots} (h : a.Disjoint b) : a.onto b = b.onto a := by
  refine ext_get fun s => ?_
  simp only [get_onto]
  rcases h s with hs | hs
  · rw [hs]
    cases b.get s <;> rfl
  · rw [hs]
    cases a.get s <;> rfl

end Slots

namespace UrlRule

variable {rule later : UrlRule}

@[simp] theorem mode_update (rule later : UrlRule) : (rule.update later).mode = rule.mode := by
  unfold update
  split <;> rfl

theorem update_of_patch (h : later.mode = some .update) :
    rule.update later = { rule with slots := later.slots.onto rule.slots } := by
  rw [update, h]
  rfl

/-- What is changed by a rule and then by a patch is changed once, by the patched rule. -/
theorem update_update (rule middle : UrlRule) (h : later.mode = some .update) :
    (rule.update middle).update later = rule.update (middle.update later) := by
  rw [update_of_patch h, update_of_patch h]
  unfold update
  cases middle.mode.getD .set with
  | set => rfl
  | update => exact congrArg (fun slots => { rule with slots }) (Slots.onto_assoc ..).symm

theorem update_right_comm (rule : UrlRule) {a b : UrlRule} (ha : a.mode = some .update) (hb : b.mode = some .update)
    (h : a.slots.Disjoint b.slots) : (rule.update a).update b = (rule.update b).update a := by
  simp only [update_of_patch ha, update_of_patch hb]
  refine congrArg (fun slots => { rule with slots }) ?_
  calc b.slots.onto (a.slots.onto rule.slots)
      = (b.slots.onto a.slots).onto rule.slots := (Slots.onto_assoc ..).symm
    _ = (a.slots.onto b.slots).onto rule.slots := by rw [h.onto_comm]
    _ = a.slots.onto (b.slots.onto rule.slots) := Slots.onto_assoc ..

end UrlRule

namespace UrlPolicy

variable {b : UrlPolicy}

def update (p later : UrlPolicy) : UrlPolicy :=
  p.mapRule fun rule => rule.update later.rule

/-- A profile stores what it has changed, without the mode. -/
theorem merge_eq_update (p later : UrlPolicy) :
    p.merge later.rule = (p.update later).mapRule fun rule => { rule with mode := none } := rfl

/-- A patch shows through every slot that it leaves, whatever the policy inherits from. -/
theorem get_update_of_patch (p : UrlPolicy) (hb : b.rule.mode = some .update) (s : Slot) :
    (p.update b).get s = (b.rule.slots.get s <|> p.get s) := by
  simp only [update, mapRule, UrlRule.update_of_patch hb, get, chain, List.findSome?_cons, Slots.get_onto]
  cases b.rule.slots.get s <;> rfl

/-- A patch after another change does what the patched change does. Of two patches for different slots, each can come
first. What a patch fills it shows, and every other slot shows in effect what it showed before, for every chain of
defaults. -/
theorem update_patch (hb : b.rule.mode = some .update) :
    (∀ p a : UrlPolicy, (p.update a).update b = p.update (a.update b)) ∧
    (∀ p a : UrlPolicy, a.rule.mode = some .update → a.rule.slots.Disjoint b.rule.slots →
      (p.update a).update b = (p.update b).update a) ∧
    ∀ (p : UrlPolicy) (s : Slot), (p.update b).get s = (b.rule.slots.get s <|> p.get s) := by
  refine ⟨fun p a => ?_, fun p a ha hdisjoint => ?_, fun p s => get_update_of_patch p hb s⟩
  · exact congrArg (fun rule => { p with rule }) (UrlRule.update_update p.rule a.rule hb)
  · exact congrArg (fun rule => { p with rule }) (UrlRule.update_right_comm p.rule ha hb hdisjoint)

/-- A patch for the content of a policy that inherits its framing from the second of two defaults. -/
theorem update_patch_content :
    let p : UrlPolicy := ⟨{ slots := { content := some .proxy } }, [{}, { slots := { chunked := some .off } }]⟩
    let a : UrlPolicy := ⟨{ mode := some .update, slots := { chunked := some (.blocks 2) } }, []⟩
    let b : UrlPolicy := ⟨{ mode := some .update, slots := { content := some .cache } }, []⟩
    b.rule.mode = some .update ∧ a.rule.slots.Disjoint b.rule.slots ∧
      (p.update a).update b = p.update (a.update b) ∧ (p.update a).update b = (p.update b).update a ∧
      (p.update b).get .content = some .cache ∧ (p.update b).get (.setting .chunked) = some .off := by
  intro p a b
  obtain ⟨hcompose, hcomm, hget⟩ := update_patch (b := b) rfl
  have hdisjoint : a.rule.slots.Disjoint b.rule.slots := by
    intro s
    cases s with
    | content => exact .inl rfl
    | setting setting => exact .inr (by cases setting <;> rfl)
    | _ => exact .inl rfl
  exact ⟨rfl, hdisjoint, hcompose p a, hcomm p a rfl hdisjoint, (hget p .content).trans rfl,
    (hget p (.setting .chunked)).trans rfl⟩

end UrlPolicy

end TrafficPolicy
