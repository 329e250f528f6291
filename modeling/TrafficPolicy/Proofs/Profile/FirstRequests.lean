import TrafficPolicy.Proofs.Number.Millionths
import TrafficPolicy.Proofs.Profile.Placement

/-!
# Which requests are dropped

The requests for one target that are dropped are the first one since the target was forgotten and those that come
within the duration of the drop after it. What is asked or forgotten of other targets in between does not count. A
definition forgets its target, and one without a target forgets all of them.
-/

namespace TrafficPolicy

namespace Duration

open Number

/-- A duration of some nanoseconds is a positive number of seconds. -/
theorem pos_of_nanos_pos {seconds : Float} (h : 0 < nanos seconds) : 0.0 < seconds := by
  have hzero : Holds 0.0 0 := holds_zero (s := .positive) rfl
  unfold nanos at h
  rw [ofFloat_eq] at h
  cases hparts : partsOf seconds with
  | infinity s =>
    cases s with
    | positive => exact (hzero.lt_iff (holds_infinity hparts)).mpr tooLarge_pos
    | negative => simp [hparts, magnitude] at h
  | notANumber => simp [hparts, magnitude] at h
  | zero s =>
    cases s <;> simp [hparts, magnitude, scaled_eq] at h
  | finite s m e hm =>
    cases s with
    | positive =>
      have hpower := two_zpow_pos e
      exact (hzero.lt_iff (holds_finite hparts)).mpr (by positivity)
    | negative => simp [hparts, magnitude] at h

end Duration

namespace DropTracker

/-! ## What is asked of a tracker -/

inductive Event where
  | request (target : String) (policy : DelayPolicy) (now : Nat)
  | reset (target : String)
  | clear

structure Answer where
  target : String
  now : Nat
  dropped : Bool
deriving DecidableEq

def step (tracker : DropTracker) : Event → List Answer × DropTracker
  | .request target policy now =>
    let (dropped, next) := tracker.shouldDrop target policy now
    ([⟨target, now, dropped⟩], next)
  | .reset target => ([], tracker.reset target)
  | .clear => ([], tracker.clear)

def run (tracker : DropTracker) : List Event → List Answer × DropTracker
  | [] => ([], tracker)
  | event :: events =>
    let (answers, next) := tracker.step event
    let (later, last) := next.run events
    (answers ++ later, last)

namespace Event

def Forgets (target : String) : Event → Prop
  | .request .. => False
  | .reset other => other = target
  | .clear => True

def time? (target : String) : Event → Option Nat
  | .request other _ now => if other = target then some now else none
  | _ => none

/-- No other policy than this one is asked about for a target. -/
def Under (target : String) (policy : DelayPolicy) : Event → Prop
  | .request other asked _ => other = target → asked = policy
  | _ => True

end Event

def answersFor (target : String) (answers : List Answer) : List (Nat × Bool) :=
  (answers.filter fun answer => answer.target = target).map fun answer => (answer.now, answer.dropped)

/-- The answers for requests at these times if the first of them is the first for its target. -/
def windowed (duration : Nat) : List Nat → List (Nat × Bool)
  | [] => []
  | first :: later => (first, true) :: later.map fun now => (now, decide (0 < duration ∧ now - first < duration))

variable {tracker : DropTracker} {target : String} {policy : DelayPolicy} {first : Nat} {event : Event}
  {events before stretch : List Event}

theorem answersFor_append (target : String) (answers later : List Answer) :
    answersFor target (answers ++ later) = answersFor target answers ++ answersFor target later := by
  simp [answersFor]

theorem run_append (tracker : DropTracker) (events later : List Event) :
    (tracker.run (events ++ later)).2 = ((tracker.run events).2.run later).2 := by
  induction events generalizing tracker with
  | nil => rfl
  | cons event events ih => exact ih (tracker.step event).2

/-! ## One event -/

theorem lookup_step_of_forgets (h : event.Forgets target) : (tracker.step event).2.firstSeen.lookup target = none := by
  cases event with
  | request => exact h.elim
  | reset other =>
    cases h
    exact lookup_reset_self tracker target
  | clear => rfl

theorem lookup_shouldDrop_of_ne {other : String} (h : other ≠ target) {now : Nat} :
    (tracker.shouldDrop other policy now).2.firstSeen.lookup target = tracker.firstSeen.lookup target := by
  unfold shouldDrop
  split
  · simp [List.lookup_cons, beq_eq_false_iff_ne.mpr h.symm]
  · rfl

/-- An event for another target. -/
theorem step_of_other (tracker : DropTracker) (hforgets : ¬event.Forgets target) (htime : event.time? target = none) :
    answersFor target (tracker.step event).1 = [] ∧
      (tracker.step event).2.firstSeen.lookup target = tracker.firstSeen.lookup target := by
  cases event with
  | request other policy now =>
    have hother : other ≠ target := fun heq => by simp [Event.time?, heq] at htime
    exact ⟨by simp [step, answersFor, hother], lookup_shouldDrop_of_ne hother⟩
  | reset other => exact ⟨rfl, lookup_reset_of_ne tracker (Ne.symm hforgets)⟩
  | clear => exact absurd trivial hforgets

/-- The first request for a target is dropped and remembered. -/
theorem step_first (hunseen : tracker.firstSeen.lookup target = none) (policy : DelayPolicy) (now : Nat) :
    answersFor target (tracker.step (.request target policy now)).1 = [(now, true)] ∧
      (tracker.step (.request target policy now)).2.firstSeen.lookup target = some now := by
  simp [step, shouldDrop, hunseen, answersFor]

/-- A later request is dropped if the duration has not passed since the first one. -/
theorem step_later (hseen : tracker.firstSeen.lookup target = some first) (policy : DelayPolicy) (now : Nat) :
    answersFor target (tracker.step (.request target policy now)).1 =
        [(now, decide (0 < policy.nanos ∧ now - first < policy.nanos))] ∧
      (tracker.step (.request target policy now)).2.firstSeen.lookup target = some first := by
  have hdropped : (decide (0.0 < policy.seconds) && decide (now - first < policy.nanos)) =
      decide (0 < policy.nanos ∧ now - first < policy.nanos) := by
    by_cases hwithin : now - first < policy.nanos
    · have hpos : 0 < policy.nanos := Nat.zero_lt_of_lt hwithin
      simp [hwithin, hpos, Duration.pos_of_nanos_pos hpos]
    · simp [hwithin]
  simp only [step, shouldDrop, hseen, hdropped]
  exact ⟨by simp [answersFor], trivial⟩

/-! ## A stretch in which a target is not forgotten -/

theorem time?_cases (target : String) (event : Event) :
    event.time? target = none ∨ ∃ policy now, event = .request target policy now := by
  cases event with
  | request other policy now =>
    by_cases hother : other = target
    · exact .inr ⟨policy, now, by rw [hother]⟩
    · exact .inl (if_neg hother)
  | _ => exact .inl rfl

theorem answersFor_run_cons (tracker : DropTracker) (target : String) (event : Event) (events : List Event) :
    answersFor target (tracker.run (event :: events)).1 =
      answersFor target (tracker.step event).1 ++ answersFor target ((tracker.step event).2.run events).1 :=
  answersFor_append ..

theorem answersFor_run_of_seen (hseen : tracker.firstSeen.lookup target = some first)
    (hkept : ∀ event ∈ events, ¬event.Forgets target) (hunder : ∀ event ∈ events, event.Under target policy) :
    answersFor target (tracker.run events).1 =
      (events.filterMap (·.time? target)).map fun now =>
        (now, decide (0 < policy.nanos ∧ now - first < policy.nanos)) := by
  induction events generalizing tracker with
  | nil => rfl
  | cons event events ih =>
    simp only [List.forall_mem_cons] at hkept hunder
    rw [answersFor_run_cons]
    rcases time?_cases target event with hother | ⟨asked, now, rfl⟩
    · obtain ⟨hnone, hlookup⟩ := step_of_other tracker hkept.1 hother
      rw [hnone, ih (hlookup.trans hseen) hkept.2 hunder.2, List.filterMap_cons_none hother]
      rfl
    · obtain rfl : asked = policy := hunder.1 rfl
      obtain ⟨hanswer, hlookup⟩ := step_later hseen asked now
      have htime : Event.time? target (.request target asked now) = some now := if_pos rfl
      rw [hanswer, ih hlookup hkept.2 hunder.2, List.filterMap_cons_some htime]
      rfl

theorem answersFor_run (hunseen : tracker.firstSeen.lookup target = none)
    (hkept : ∀ event ∈ events, ¬event.Forgets target) (hunder : ∀ event ∈ events, event.Under target policy) :
    answersFor target (tracker.run events).1 = windowed policy.nanos (events.filterMap (·.time? target)) := by
  induction events generalizing tracker with
  | nil => rfl
  | cons event events ih =>
    simp only [List.forall_mem_cons] at hkept hunder
    rw [answersFor_run_cons]
    rcases time?_cases target event with hother | ⟨asked, now, rfl⟩
    · obtain ⟨hnone, hlookup⟩ := step_of_other tracker hkept.1 hother
      rw [hnone, ih (hlookup.trans hunseen) hkept.2 hunder.2, List.filterMap_cons_none hother]
      rfl
    · obtain rfl : asked = policy := hunder.1 rfl
      obtain ⟨hanswer, hlookup⟩ := step_first hunseen asked now
      have htime : Event.time? target (.request target asked now) = some now := if_pos rfl
      rw [hanswer, answersFor_run_of_seen hlookup hkept.2 hunder.2, List.filterMap_cons_some htime]
      rfl

/-- Nothing is remembered of a target that has just been forgotten. -/
theorem lookup_run_of_forgets (h : ∀ event ∈ before.getLast?, event.Forgets target) :
    (run {} before).2.firstSeen.lookup target = none := by
  rcases List.eq_nil_or_concat before with rfl | ⟨events, event, rfl⟩
  · rfl
  · rw [List.concat_eq_append] at h ⊢
    rw [run_append]
    exact lookup_step_of_forgets (h event (by simp))

private theorem within_prefix {times : List Nat} (hordered : times.Pairwise (· ≤ ·)) (duration first : Nat) :
    ∃ within passed, times.map (fun now => decide (0 < duration ∧ now - first < duration)) =
      List.replicate within true ++ List.replicate passed false ∧ (duration = 0 → within = 0) := by
  induction times with
  | nil => exact ⟨0, 0, rfl, fun _ => rfl⟩
  | cons now times ih =>
    obtain ⟨hnow, hordered⟩ := List.pairwise_cons.mp hordered
    by_cases hwithin : 0 < duration ∧ now - first < duration
    · obtain ⟨within, passed, hmap, -⟩ := ih hordered
      refine ⟨within + 1, passed, ?_, fun hzero => by omega⟩
      rw [List.map_cons, hmap, decide_eq_true hwithin]
      rfl
    · -- The duration has passed at all later times too.
      have hpassed : ∀ later ∈ now :: times, decide (0 < duration ∧ later - first < duration) = false := by
        intro later hlater
        have hle : now ≤ later := by
          rcases List.mem_cons.mp hlater with rfl | hlater
          · exact le_rfl
          · exact hnow later hlater
        exact decide_eq_false (by omega)
      refine ⟨0, (now :: times).length, ?_, fun _ => rfl⟩
      rw [List.map_congr_left hpassed, List.map_const']
      rfl

/-- If the times do not go back, the requests that are dropped come before the others. -/
theorem windowed_prefix {times : List Nat} (hordered : times.Pairwise (· ≤ ·)) (duration : Nat) :
    ∃ dropped kept, (windowed duration times).map Prod.snd = List.replicate dropped true ++ List.replicate kept false ∧
      (times ≠ [] → 0 < dropped ∧ (duration = 0 → dropped = 1)) := by
  cases times with
  | nil => exact ⟨0, 0, rfl, fun h => absurd rfl h⟩
  | cons first later =>
    obtain ⟨within, passed, hmap, hzero⟩ := within_prefix (List.pairwise_cons.mp hordered).2 duration first
    refine ⟨within + 1, passed, ?_, fun _ => ⟨Nat.succ_pos _, fun hduration => by rw [hzero hduration]⟩⟩
    rw [windowed, List.map_cons, List.map_map]
    exact congrArg (true :: ·) hmap

end DropTracker

/-! ## After a definition -/

def UrlPolicy.dropKey (policy : UrlPolicy) : String := policy.target?.getD Profile.defaultKey

namespace Profile

variable {registry : Registry} {p : Profile} {policy : UrlPolicy} {key : String}

/-- The profile after some requests, each with the policy that counts for it and its time. -/
def requested (p : Profile) (requests : List (UrlPolicy × Nat)) : Profile :=
  requests.foldl (fun p request => (p.shouldDrop request.1 request.2).2) p

theorem shouldDrop_of_unseen (hunseen : p.drops.firstSeen.lookup policy.dropKey = none) (hdrop : policy.drop?.isSome)
    (now : Nat) : (p.shouldDrop policy now).1 = true := by
  obtain ⟨drop, hdrop⟩ := Option.isSome_iff_exists.mp hdrop
  rw [UrlPolicy.dropKey] at hunseen
  simp [shouldDrop, hdrop, DropTracker.shouldDrop, hunseen]

theorem lookup_shouldDrop (hkey : policy.dropKey ≠ key) (now : Nat) :
    (p.shouldDrop policy now).2.drops.firstSeen.lookup key = p.drops.firstSeen.lookup key := by
  unfold shouldDrop
  split
  · rfl
  · exact DropTracker.lookup_shouldDrop_of_ne hkey

theorem lookup_requested {requests : List (UrlPolicy × Nat)} (h : ∀ request ∈ requests, request.1.dropKey ≠ key) :
    (p.requested requests).drops.firstSeen.lookup key = p.drops.firstSeen.lookup key := by
  induction requests generalizing p with
  | nil => rfl
  | cons request requests ih =>
    obtain ⟨hfirst, hrest⟩ := List.forall_mem_cons.mp h
    exact (ih hrest).trans (lookup_shouldDrop hfirst request.2)

/-- A definition forgets its target. -/
theorem lookup_applyUrl (p : Profile) {rule : UrlRule} (h : policy.target? = rule.target?) :
    (p.applyUrl rule).drops.firstSeen.lookup policy.dropKey = none := by
  unfold applyUrl
  split
  · rfl
  · rename_i target ht
    rw [UrlPolicy.dropKey, h, UrlRule.target?, ht]
    exact DropTracker.lookup_reset_self _ _

theorem Reachable.stores_applyUrl (h : Reachable registry p) (rule : UrlRule) :
    ∃ policy ∈ (p.applyUrl rule).urlPolicies, policy.target? = rule.target? := by
  have hdefines := Ledger.defines_applyUrl h.wellLinked.sectioned_urls rule
  rw [← ledger_applyUrl, urlRules_ledger, urlRules_ledger] at hdefines
  obtain ⟨_, hmem, htarget⟩ := List.mem_map.mp hdefines.mem
  obtain ⟨policy, hpolicy, rfl⟩ := List.mem_map.mp hmem
  exact ⟨policy, hpolicy, htarget⟩

/-- The requests under one policy are remembered apart from those under any other. -/
theorem Reachable.dropKey_injective (h : Reachable .standard p) {a b : UrlPolicy} (ha : a ∈ p.urlPolicies)
    (hb : b ∈ p.urlPolicies) (hkey : a.dropKey = b.dropKey) : a = b := by
  have hlinked := h.wellLinked
  have hdefault : ∀ default ∈ p.defaultUrl, default.dropKey = "" := fun default hmem => by
    rw [UrlPolicy.dropKey, UrlPolicy.target?, hlinked.default_target default hmem]
    rfl
  have htargeted : ∀ url ∈ p.urls, url.target? = some url.dropKey ∧ url.dropKey ≠ "" := fun url hmem => by
    obtain ⟨target, htarget⟩ := Option.isSome_iff_exists.mp (hlinked.targeted url hmem)
    have htext : url.target? = some target.text := by rw [UrlPolicy.target?, htarget, Option.map_some]
    obtain ⟨-, pattern, hread, -⟩ := h.read_target hmem htext
    have hkey : url.dropKey = target.text := by rw [UrlPolicy.dropKey, htext, Option.getD_some]
    rw [hkey]
    refine ⟨htext, fun hempty => ?_⟩
    rw [hempty] at hread
    cases hread
  rcases List.mem_append.mp ha with ha | ha <;> rcases List.mem_append.mp hb with hb | hb
  · exact Option.some.inj ((Option.mem_toList.mp ha).symm.trans (Option.mem_toList.mp hb))
  · exact absurd (hkey.symm.trans (hdefault a (Option.mem_toList.mp ha))) (htargeted b hb).2
  · exact absurd (hkey.trans (hdefault b (Option.mem_toList.mp hb))) (htargeted a ha).2
  · refine List.inj_on_of_nodup_map hlinked.distinct ha hb ?_
    rw [(htargeted a ha).1, (htargeted b hb).1, hkey]

/-- Between two times at which a target is forgotten, a tracker answers that the first request for it is to be dropped
and after it those within the duration of the drop. A definition forgets its target, and the policy that is stored for
it then drops the next request if it is one to drop requests. -/
theorem drops_from_first_request :
    (∀ (target : String) (policy : DelayPolicy) (before stretch : List DropTracker.Event),
      (∀ event ∈ before.getLast?, event.Forgets target) → (∀ event ∈ stretch, ¬event.Forgets target) →
      (∀ event ∈ stretch, event.Under target policy) →
      (stretch.filterMap (·.time? target)).Pairwise (· ≤ ·) →
        let times := stretch.filterMap (·.time? target)
        let answers := DropTracker.answersFor target ((DropTracker.run {} before).2.run stretch).1
        answers = DropTracker.windowed policy.nanos times ∧
        ∃ dropped kept, answers.map Prod.snd = List.replicate dropped true ++ List.replicate kept false ∧
          (times ≠ [] → 0 < dropped ∧ (policy.nanos = 0 → dropped = 1))) ∧
    ∀ (registry : Registry) (p : Profile) (shuffler : Shuffler) (command : String) (rule : UrlRule),
      Reachable registry p → registry.read command = .ok (.url rule) → ∃ q, p.apply registry shuffler command = .ok q ∧
        (∃ policy ∈ q.urlPolicies, policy.target? = rule.target?) ∧
        ∀ policy ∈ q.urlPolicies, policy.target? = rule.target? → policy.drop?.isSome →
          ∀ requests : List (UrlPolicy × Nat), (∀ request ∈ requests, request.1.dropKey ≠ policy.dropKey) →
            ∀ now, ((q.requested requests).shouldDrop policy now).1 = true := by
  constructor
  · intro target policy before stretch hbefore hkept hunder hordered
    have hanswers := DropTracker.answersFor_run (DropTracker.lookup_run_of_forgets hbefore) hkept hunder
    refine ⟨hanswers, ?_⟩
    rw [hanswers]
    exact DropTracker.windowed_prefix hordered policy.nanos
  · intro registry p shuffler command rule hp hread
    refine ⟨p.applyUrl rule, apply_eq_ok_iff.mpr ⟨_, hread, rfl⟩, hp.stores_applyUrl rule, ?_⟩
    intro policy _ htarget hdrop requests hrequests now
    exact shouldDrop_of_unseen ((lookup_requested hrequests).trans (lookup_applyUrl p htarget)) hdrop now

def tenSeconds : DelayPolicy := { kind := .drop, seconds := 10.0 }

private def dropping : UrlRule := { hostRule .host with slots := { delay := some tenSeconds } }

private theorem read_dropping : Registry.standard.read "url drop 10s g.cn" = .ok (.url dropping) := by
  have hw : Text.words "url drop 10s g.cn" = ["url", "drop", "10s", "g.cn"] := by decide
  have hb : Registry.standard.builder? "drop" = some (.leaf (.delay .drop)) :=
    Registry.builder?_standard_iff.mpr (.delay .drop)
  have hseconds : Duration.read "10s" = .ok 10.0 := by decide
  have hdrop : (Leaf.delay .drop).read.Reads ["10s", "g.cn"] (.delay tenSeconds) ["g.cn"] :=
    Leaf.reads_delay.mpr ⟨false, false, ["10s", "g.cn"], "10s", 10.0, by simp [WordReader.reads_accept],
      by simp [WordReader.reads_accept], hseconds, by decide, rfl⟩
  exact UrlRule.read_part_target hw (by decide) ((Registry.builds_leaf hb).mpr hdrop) rfl (by decide) (by decide)

/-- Ten seconds after the first request the target has not been forgotten, and the request is not dropped any more. A
definition of the same drop starts it again. -/
theorem drops_from_first_request_again :
    DropTracker.answersFor "g.cn" ((DropTracker.run {} [.request "g.cn" tenSeconds 0, .reset "g.cn"]).2.run
        [.request "g.cn" tenSeconds 1000000000, .request "b.cn" tenSeconds 5000000000,
          .request "g.cn" tenSeconds 10999999999, .reset "b.cn", .request "g.cn" tenSeconds 11000000000]).1 =
      [(1000000000, true), (10999999999, true), (11000000000, false)] ∧
    ∃ p policy q, Reachable .standard p ∧ (p.shouldDrop policy 11000000000).1 = false ∧
      p.apply .standard .inOrder "url drop 10s g.cn" = .ok q ∧ policy ∈ q.urlPolicies ∧
      (q.shouldDrop policy 11000000000).1 = true := by
  have hnanos : tenSeconds.nanos = 10000000000 := by decide
  constructor
  · obtain ⟨hanswers, -⟩ := drops_from_first_request.1 "g.cn" tenSeconds [.request "g.cn" tenSeconds 0, .reset "g.cn"]
      [.request "g.cn" tenSeconds 1000000000, .request "b.cn" tenSeconds 5000000000,
        .request "g.cn" tenSeconds 10999999999, .reset "b.cn", .request "g.cn" tenSeconds 11000000000]
      (by simp [DropTracker.Event.Forgets]) (by simp [DropTracker.Event.Forgets]) (by simp [DropTracker.Event.Under])
      (by decide)
    rw [hanswers, hnanos]
    rfl
  · let policy : UrlPolicy := ⟨dropping, []⟩
    let p : Profile := requested { urls := [policy] } [(policy, 1000000000)]
    have hp : Reachable .standard p :=
      (Reachable.fresh.apply .inOrder (apply_eq_ok_iff.mpr ⟨_, read_dropping, rfl⟩)).drop policy 1000000000
    obtain ⟨q, happly, -, hdrops⟩ :=
      drops_from_first_request.2 .standard p .inOrder "url drop 10s g.cn" dropping hp read_dropping
    obtain rfl := Except.ok.inj (happly.symm.trans (apply_eq_ok_iff.mpr ⟨_, read_dropping, rfl⟩))
    have hstored : policy ∈ (p.applyUrl dropping).urlPolicies := by decide
    exact ⟨p, policy, _, hp, by decide, happly, hstored,
      hdrops policy hstored rfl rfl [] (fun _ h => absurd h List.not_mem_nil) 11000000000⟩

end Profile

end TrafficPolicy
