import TrafficPolicy.Proofs.Grammar.Parts

/-!
# Slots as they are written

The occupants of slots are written as policies one after the other, and the slots that are filled from these
are the same but for floats.
-/

namespace TrafficPolicy

open Text WordReader

def Content.policy : Content → Policy
  | .proxy => .marker .proxy
  | .cache => .marker .cache
  | .status code => .status code
  | .map mapping => .map mapping
  | .redirect value => .text .redirect value
  | .rewrite value => .text .rewrite value
  | .restore value => .text .restore value
  | .tcpWrite value => .text .tcpWrite value

def Slot.policy : (s : Slot) → s.Occupant → Policy
  | .delay, d => .delay d
  | .body, d => .delay d
  | .content, c => c.policy
  | .setting .chunked, framing => .chunked framing
  | .setting .speed, rate => .speed rate
  | .setting .dont302, f => .flag .dont302 f
  | .setting .disable304, f => .flag .disable304 f
  | .setting .contentType, value => .text .contentType value
  | .setting .requestHeaders, value => .text .requestHeaders value
  | .setting .responseHeaders, value => .text .responseHeaders value
  | .setting .host, value => .text .host value
  | .setting .plugin, value => .text .plugin value

/-- An occupant can be read and belongs into its slot. -/
structure Slot.Sound (s : Slot) (o : s.Occupant) : Prop where
  elementary : (s.policy o).Elementary
  belongs : (s.policy o).urlPart? = some (.occupant s o)

theorem Slot.policy_injective (s : Slot) : Function.Injective s.policy := by
  intro a b h
  cases s with
  | content => cases a <;> cases b <;> cases h <;> rfl
  | setting s => cases s <;> cases h <;> rfl
  | _ => cases h; rfl

theorem Slot.command_policy (s : Slot) (o : s.Occupant) : (s.policy o).command = s.command o := by
  cases s with
  | content => cases o <;> rfl
  | setting s => cases s <;> rfl
  | _ => rfl

namespace Policy

variable {policy again : Policy} {s : Slot} {o : s.Occupant}

theorem eq_policy_of_part (h : policy.urlPart? = some (.occupant s o)) : policy = s.policy o := by
  cases policy with
  | marker m => cases m <;> cases h <;> rfl
  | flag switch f => cases switch <;> cases h <;> rfl
  | text kind value => cases kind <;> cases h <;> rfl
  | delay d =>
    simp only [urlPart?, Option.some.injEq] at h
    split at h <;> cases h <;> rfl
  | _ => cases h <;> rfl

/-- What is read again belongs into the same slot. -/
theorem Rereads.sound (h : (s.policy o).Rereads again) (ho : s.Sound o) :
    ∃ o' : s.Occupant, again = s.policy o' ∧ s.Sound o' := by
  have hpart := ho.belongs
  have helementary := ho.elementary
  generalize hp : s.policy o = policy at h hpart helementary
  have hsame : again = policy → ∃ o' : s.Occupant, again = s.policy o' ∧ s.Sound o' := by
    rintro rfl
    exact ⟨o, hp.symm, ho⟩
  cases policy with
  | delay d =>
    obtain ⟨seconds, -, -, rfl⟩ := h
    simp only [urlPart?, Option.some.injEq] at hpart
    split at hpart
    · rename_i hbody
      cases hpart
      exact ⟨{ d with seconds }, rfl, trivial, by simp [Slot.policy, urlPart?, hbody]⟩
    · rename_i hbody
      cases hpart
      exact ⟨{ d with seconds }, rfl, trivial, by simp [Slot.policy, urlPart?, hbody]⟩
  | speed rate =>
    obtain ⟨next, -, -, rfl⟩ := h
    cases hpart
    exact ⟨next, rfl, trivial, rfl⟩
  | _ => exact hsame h

/-- Words are read in one way only. -/
theorem Rereads.unique {other : Policy} (h : policy.Rereads again) (hother : policy.Rereads other) :
    again = other := by
  cases policy with
  | delay d =>
    obtain ⟨seconds, hread, -, rfl⟩ := h
    obtain ⟨seconds', hread', -, rfl⟩ := hother
    cases hread.symm.trans hread'
    rfl
  | speed rate =>
    obtain ⟨next, hread, -, rfl⟩ := h
    obtain ⟨next', hread', -, rfl⟩ := hother
    cases hread.symm.trans hread'
    rfl
  | _ => exact Eq.trans h (Eq.symm hother)

theorem beginsIn_url (helementary : policy.Elementary) (hpart : policy.urlPart?.isSome) :
    Registry.ReadsParts.BeginsIn UrlRule.keywords policy := by
  cases policy with
  | marker m => cases m <;> first | exact ⟨_, rfl, by decide⟩ | cases hpart
  | flag switch f =>
    have hall : ∀ switch : Switch, ∀ f ∈ switch.flags, f.keyword ∈ UrlRule.keywords := by
      intro switch
      cases switch <;> decide
    exact ⟨_, rfl, hall switch f helementary⟩
  | text kind value => cases kind <;> exact ⟨_, rfl, by decide⟩
  | map mapping => cases mapping <;> exact ⟨_, rfl, by decide⟩
  | chunked framing => cases framing <;> exact ⟨_, rfl, by decide⟩
  | delay d =>
    refine ⟨d.kind.keyword, by simp [written, DelayPolicy.words], ?_⟩
    cases d.kind <;> decide
  | speed rate => exact ⟨_, rfl, by decide⟩
  | status code => exact ⟨_, rfl, by decide⟩
  | _ => cases hpart

end Policy

namespace Slots

section Occupants

variable {P : (s : Slot) → s.Occupant → Prop} {slots upper lower : Slots}

theorem forall_put (h : ∀ s o, slots.get s = some o → P s o) {s : Slot} {o? : Option s.Occupant}
    (ho : ∀ o ∈ o?, P s o) : ∀ t o, (slots.put s o?).get t = some o → P t o := by
  intro t o ht
  by_cases hts : t = s
  · subst hts
    rw [get_put_self] at ht
    exact ho o ht
  · rw [get_put_of_ne _ _ hts] at ht
    exact h t o ht

theorem forall_onto (hupper : ∀ s o, upper.get s = some o → P s o) (hlower : ∀ s o, lower.get s = some o → P s o) :
    ∀ s o, (upper.onto lower).get s = some o → P s o := by
  intro s o ho
  rw [get_onto] at ho
  cases hs : upper.get s with
  | none =>
    rw [hs] at ho
    exact hlower s o ho
  | some own =>
    rw [hs] at ho
    exact hupper s o (hs.trans ho)

end Occupants

variable {slots again : Slots} {ss : List Slot} {rule : UrlRule}

def Sound (slots : Slots) : Prop := ∀ s o, slots.get s = some o → s.Sound o

def policiesOf (slots : Slots) (ss : List Slot) : List Policy :=
  ss.filterMap fun s => (slots.get s).map s.policy

def policies (slots : Slots) : List Policy := slots.policiesOf Slot.all

/-- The slots that are filled when occupants are read again. -/
def Rereads (slots again : Slots) : Prop :=
  ∀ s : Slot, Option.Rel (fun o o' => (s.policy o).Rereads (s.policy o')) (slots.get s) (again.get s)

theorem mem_policiesOf {policy : Policy} :
    policy ∈ slots.policiesOf ss ↔ ∃ s ∈ ss, ∃ o, slots.get s = some o ∧ s.policy o = policy := by
  simp only [policiesOf, List.mem_filterMap, Option.map_eq_some_iff]

theorem commands_eq : slots.commands = slots.policies.map Policy.command := by
  simp only [commands, policies, policiesOf, List.map_filterMap, Option.map_map, Function.comp_def,
    Slot.command_policy]

theorem Sound.elementary (h : slots.Sound) : ∀ policy ∈ slots.policiesOf ss, policy.Elementary := by
  intro policy hpolicy
  obtain ⟨s, -, o, ho, rfl⟩ := mem_policiesOf.mp hpolicy
  exact (h s o ho).elementary

theorem Sound.beginsIn (h : slots.Sound) :
    ∀ policy ∈ slots.policiesOf ss, Registry.ReadsParts.BeginsIn UrlRule.keywords policy := by
  intro policy hpolicy
  obtain ⟨s, -, o, ho, rfl⟩ := mem_policiesOf.mp hpolicy
  have hs := h s o ho
  exact Policy.beginsIn_url hs.elementary (by rw [hs.belongs]; rfl)

private theorem place_sound {s : Slot} {o : s.Occupant} (ho : s.Sound o) (hfree : rule.slots.get s = none) :
    rule.placePolicy (s.policy o) = .ok { rule with slots := rule.slots.put s (some o) } := by
  simp only [UrlRule.placePolicy, ho.belongs, UrlRule.place, UrlRule.rival?, hfree]
  cases s.exclusiveName? <;> rfl

/-- What occupants are read as again fills the same slots. -/
theorem Sound.foldlM_place (h : slots.Sound) (hss : ss.Nodup) (hfree : ∀ s ∈ ss, rule.slots.get s = none)
    {read : List Policy} (hread : List.Forall₂ Policy.Rereads (slots.policiesOf ss) read) :
    ∃ next : Slots, read.foldlM UrlRule.placePolicy rule = .ok { rule with slots := next } ∧
      (∀ s ∈ ss, Option.Rel (fun o o' => (s.policy o).Rereads (s.policy o')) (slots.get s) (next.get s)) ∧
      ∀ s ∉ ss, next.get s = rule.slots.get s := by
  induction ss generalizing rule read with
  | nil =>
    cases hread
    exact ⟨rule.slots, rfl, by simp, fun _ _ => rfl⟩
  | cons s ss ih =>
    obtain ⟨hs, hss⟩ := List.nodup_cons.mp hss
    have hfrees : ∀ t ∈ ss, rule.slots.get t = none := fun t ht => hfree t (List.mem_cons_of_mem _ ht)
    cases ho : slots.get s with
    | none =>
      have hpolicies : slots.policiesOf (s :: ss) = slots.policiesOf ss := by
        simp [policiesOf, ho]
      obtain ⟨next, hfold, hin, hout⟩ := ih hss hfrees (hpolicies ▸ hread)
      refine ⟨next, hfold, ?_, fun t ht => hout t fun hmem => ht (List.mem_cons_of_mem _ hmem)⟩
      intro t ht
      rcases List.mem_cons.mp ht with rfl | ht
      · rw [ho, hout t hs, hfree t List.mem_cons_self]
        exact .none
      · exact hin t ht
    | some o =>
      have hpolicies : slots.policiesOf (s :: ss) = s.policy o :: slots.policiesOf ss := by
        simp [policiesOf, ho]
      rw [hpolicies] at hread
      cases hread with
      | @cons _ first _ read hfirst hread =>
        obtain ⟨o', rfl, ho'⟩ := hfirst.sound (h s o ho)
        have hplace := place_sound ho' (hfree s List.mem_cons_self)
        have hfrees : ∀ t ∈ ss, (rule.slots.put s (some o')).get t = none := by
          intro t ht
          have hne : t ≠ s := by
            rintro rfl
            exact hs ht
          rw [get_put_of_ne _ _ hne]
          exact hfrees t ht
        obtain ⟨next, hfold, hin, hout⟩ :=
          @ih { rule with slots := rule.slots.put s (some o') } hss hfrees _ hread
        refine ⟨next, ?_, ?_, ?_⟩
        · rw [List.foldlM_cons, hplace]
          exact hfold
        · intro t ht
          rcases List.mem_cons.mp ht with rfl | ht
          · rw [ho, hout t hs, get_put_self]
            exact .some hfirst
          · exact hin t ht
        · intro t ht
          simp only [List.mem_cons, not_or] at ht
          rw [hout t ht.2, get_put_of_ne _ _ ht.1]

/-- Slots with related occupants are written as related policies. -/
theorem forall₂_policiesOf {R : Policy → Policy → Prop}
    (h : ∀ s : Slot, Option.Rel (fun o o' => R (s.policy o) (s.policy o')) (slots.get s) (again.get s))
    (ss : List Slot) : List.Forall₂ R (slots.policiesOf ss) (again.policiesOf ss) := by
  induction ss with
  | nil => exact .nil
  | cons s ss ih =>
    have hs := h s
    simp only [policiesOf, List.filterMap_cons] at ih ⊢
    generalize slots.get s = o?, again.get s = again? at hs
    cases hs with
    | none => exact ih
    | some hread => exact .cons hread ih

theorem Rereads.forall₂ (h : slots.Rereads again) : List.Forall₂ Policy.Rereads slots.policies again.policies :=
  forall₂_policiesOf h Slot.all

theorem Rereads.unique {other : Slots} (h : slots.Rereads again) (hother : slots.Rereads other) :
    again = other := by
  refine ext_get fun s => ?_
  have hs := h s
  have hs' := hother s
  generalize slots.get s = o?, again.get s = again?, other.get s = other? at hs hs'
  cases hs with
  | none =>
    cases hs'
    rfl
  | some hread =>
    cases hs' with
    | some hread' => rw [s.policy_injective (hread.unique hread')]

theorem Sound.of_rereads (h : slots.Sound) (hagain : slots.Rereads again) : again.Sound := by
  intro s o' ho'
  have hs := hagain s
  have hsound := h s
  generalize slots.get s = o? at hs hsound
  rw [ho'] at hs
  cases hs with
  | some hread =>
    obtain ⟨o, heq, ho⟩ := hread.sound (hsound _ rfl)
    rw [s.policy_injective heq]
    exact ho

/-- The slots that are filled from what the occupants are read as. -/
theorem Sound.placed_iff (h : slots.Sound) (hfree : rule.slots = {}) {next : UrlRule} :
    (∃ read, List.Forall₂ Policy.Rereads slots.policies read ∧ read.foldlM UrlRule.placePolicy rule = .ok next) ↔
      ∃ again, slots.Rereads again ∧ next = { rule with slots := again } := by
  have hall : ∀ s ∈ Slot.all, rule.slots.get s = none := by simp [hfree]
  have hplaced : ∀ {read}, List.Forall₂ Policy.Rereads slots.policies read → ∃ again, slots.Rereads again ∧
      read.foldlM UrlRule.placePolicy rule = .ok { rule with slots := again } := by
    intro read hread
    obtain ⟨again, hfold, hin, -⟩ := h.foldlM_place (by decide) hall hread
    exact ⟨again, fun s => hin s s.mem_all, hfold⟩
  constructor
  · rintro ⟨read, hread, hfold⟩
    obtain ⟨again, hagain, hok⟩ := hplaced hread
    cases hok.symm.trans hfold
    exact ⟨again, hagain, rfl⟩
  · rintro ⟨again, hagain, rfl⟩
    refine ⟨again.policies, hagain.forall₂, ?_⟩
    obtain ⟨other, hother, hok⟩ := hplaced hagain.forall₂
    obtain rfl := hagain.unique hother
    exact hok

end Slots

/-! ## Texts that stay as they are -/

/-- The text of a duration is read as a duration that has the same text. -/
def Duration.Settled (seconds : Float) : Prop :=
  ∃ again, Duration.read (Duration.text seconds) = .ok again ∧ ¬again > Duration.maxSeconds ∧
    Duration.text again = Duration.text seconds

def Rate.Settled (rate : Float) : Prop :=
  ∃ again, Rate.read (Rate.text rate) = .ok again ∧ ¬again < Leaf.minRate ∧ Rate.text again = Rate.text rate

namespace Policy

variable {policy again : Policy}

theorem Rereads.length_written (h : policy.Rereads again) : again.written.length = policy.written.length := by
  cases policy with
  | delay d =>
    obtain ⟨seconds, -, -, rfl⟩ := h
    simp [written, DelayPolicy.words]
  | speed rate =>
    obtain ⟨next, -, -, rfl⟩ := h
    rfl
  | _ => rw [h]

/-- If what policies are read as is written in the same words, so is what each of them is read as. -/
theorem settled_of_flatMap {policies read : List Policy} (h : List.Forall₂ Rereads policies read)
    (heq : read.flatMap written = policies.flatMap written) :
    ∀ policy ∈ policies, ∃ again, policy.Rereads again ∧ again.written = policy.written := by
  induction h with
  | nil => simp
  | cons hfirst _ ih =>
    rw [List.flatMap_cons, List.flatMap_cons] at heq
    obtain ⟨hwritten, hrest⟩ := List.append_inj heq hfirst.length_written
    exact List.forall_mem_cons.mpr ⟨⟨_, hfirst, hwritten⟩, ih hrest⟩

theorem settled_delay_iff {d : DelayPolicy} :
    (∃ again, Rereads (.delay d) again ∧ again.written = (Policy.delay d).written) ↔
      Duration.Settled d.seconds := by
  constructor
  · rintro ⟨_, ⟨seconds, hread, hmax, rfl⟩, hwritten⟩
    refine ⟨seconds, hread, hmax, ?_⟩
    simpa [written, DelayPolicy.words] using hwritten
  · rintro ⟨seconds, hread, hmax, htext⟩
    refine ⟨_, ⟨seconds, hread, hmax, rfl⟩, ?_⟩
    simp [written, DelayPolicy.words, htext]

theorem settled_speed_iff {rate : Float} :
    (∃ again, Rereads (.speed rate) again ∧ again.written = (Policy.speed rate).written) ↔
      Rate.Settled rate := by
  constructor
  · rintro ⟨_, ⟨next, hread, hmin, rfl⟩, hwritten⟩
    refine ⟨next, hread, hmin, ?_⟩
    simpa [written] using hwritten
  · rintro ⟨next, hread, hmin, htext⟩
    refine ⟨_, ⟨next, hread, hmin, rfl⟩, ?_⟩
    simp [written, htext]

end Policy

namespace Slots

/-- The floats of all occupants have texts that stay as they are. -/
structure Settled (slots : Slots) : Prop where
  delay : ∀ d ∈ slots.delay, Duration.Settled d.seconds
  body : ∀ d ∈ slots.body, Duration.Settled d.seconds
  speed : ∀ rate ∈ slots.speed, Rate.Settled rate

variable {slots again : Slots}

theorem settled_iff : slots.Settled ↔ ∀ s o, slots.get s = some o →
    ∃ read, (s.policy o).Rereads read ∧ read.written = (s.policy o).written := by
  constructor
  · rintro ⟨hdelay, hbody, hspeed⟩ s o ho
    cases s with
    | delay => exact Policy.settled_delay_iff.mpr (hdelay o ho)
    | body => exact Policy.settled_delay_iff.mpr (hbody o ho)
    | content => cases o <;> exact ⟨_, rfl, rfl⟩
    | setting s =>
      cases s with
      | speed => exact Policy.settled_speed_iff.mpr (hspeed o ho)
      | _ => exact ⟨_, rfl, rfl⟩
  · intro h
    exact ⟨fun d hd => Policy.settled_delay_iff.mp (h .delay d hd),
      fun d hd => Policy.settled_delay_iff.mp (h .body d hd),
      fun rate hrate => Policy.settled_speed_iff.mp (h (.setting .speed) rate hrate)⟩

/-- What an occupant is read as is written in the same words. -/
private abbrev SameWords (policy again : Policy) : Prop :=
  policy.Rereads again ∧ again.written = policy.written

private theorem exists_delay {o : Option DelayPolicy} (h : ∀ d ∈ o, Duration.Settled d.seconds) :
    ∃ o' : Option DelayPolicy, Option.Rel (fun d d' => SameWords (.delay d) (.delay d')) o o' := by
  cases o with
  | none => exact ⟨none, .none⟩
  | some d =>
    obtain ⟨_, ⟨seconds, hread, hmax, rfl⟩, hwritten⟩ := Policy.settled_delay_iff.mpr (h d rfl)
    exact ⟨some { d with seconds }, .some ⟨⟨seconds, hread, hmax, rfl⟩, hwritten⟩⟩

private theorem exists_speed {o : Option Float} (h : ∀ rate ∈ o, Rate.Settled rate) :
    ∃ o' : Option Float, Option.Rel (fun rate again => SameWords (.speed rate) (.speed again)) o o' := by
  cases o with
  | none => exact ⟨none, .none⟩
  | some rate =>
    obtain ⟨_, ⟨next, hread, hmin, rfl⟩, hwritten⟩ := Policy.settled_speed_iff.mpr (h rate rfl)
    exact ⟨some next, .some ⟨⟨next, hread, hmin, rfl⟩, hwritten⟩⟩

private theorem rel_self {α : Type} {R : α → α → Prop} (o : Option α) (h : ∀ a, R a a) : Option.Rel R o o := by
  cases o with
  | none => exact .none
  | some a => exact .some (h a)

/-- Occupants are settled exactly if they are read as occupants that are written in the same words. -/
theorem settled_iff_written : slots.Settled ↔ ∃ again, slots.Rereads again ∧
    again.policies.flatMap Policy.written = slots.policies.flatMap Policy.written := by
  constructor
  · rintro ⟨hdelay, hbody, hspeed⟩
    obtain ⟨delay, hdelay⟩ := exists_delay hdelay
    obtain ⟨body, hbody⟩ := exists_delay hbody
    obtain ⟨speed, hspeed⟩ := exists_speed hspeed
    obtain ⟨again, hsame⟩ : ∃ again : Slots, ∀ s : Slot,
        Option.Rel (fun o o' => SameWords (s.policy o) (s.policy o')) (slots.get s) (again.get s) := by
      refine ⟨{ slots with delay, body, speed }, fun s => ?_⟩
      cases s with
      | delay => exact hdelay
      | body => exact hbody
      | content => exact rel_self _ fun c => by cases c <;> exact ⟨rfl, rfl⟩
      | setting s =>
        cases s with
        | speed => exact hspeed
        | _ => exact rel_self _ fun _ => ⟨rfl, rfl⟩
    refine ⟨again, fun s => ?_, ?_⟩
    · have hs := hsame s
      generalize slots.get s = o?, again.get s = again? at hs ⊢
      cases hs with
      | none => exact .none
      | some h => exact .some h.1
    · have hmap : again.policies.map Policy.written = slots.policies.map Policy.written := by
        rw [← List.forall₂_eq_eq_eq, List.forall₂_map_left_iff, List.forall₂_map_right_iff]
        exact ((forall₂_policiesOf hsame Slot.all).imp fun _ _ h => h.2).flip
      rw [List.flatMap_def, List.flatMap_def, hmap]
  · rintro ⟨again, hagain, hwritten⟩
    rw [settled_iff]
    exact fun s o ho => Policy.settled_of_flatMap hagain.forall₂ hwritten _
      (mem_policiesOf.mpr ⟨s, s.mem_all, o, ho, rfl⟩)

end Slots

end TrafficPolicy
