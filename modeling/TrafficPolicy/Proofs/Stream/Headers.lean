import TrafficPolicy.Proofs.Profile.Chains
import TrafficPolicy.Proofs.Stream.Limit
import TrafficPolicy.Proofs.Stream.Manners
import TrafficPolicy.Proofs.Stream.Waits

/-!
# Headers are not held

A wait for the body is told by the first flush that reaches it. Above it there are at most stages that make no flush
of their own, and what is flushed below does not come back to it. So for what a caller calls up to the first flush, the
stages of a policy with a body delay are as if that delay was not there.
-/

namespace TrafficPolicy

namespace Stream

open Call

variable {σ τ α β κ υ : Type}

/-! ## Calls that show the same -/

/-- A call does what another one does, as far as a view of its state shows. -/
def Call.Shows (view : τ → σ) (before after : τ → Prop) (call : Call τ α) (shown : Call σ α) : Prop :=
  ∀ horizon now t, before t →
    (call.run horizon now t).through view = shown.run horizon now (view t) ∧ after (call.run horizon now t).state

namespace Call.Shows

variable {view : τ → σ} {before mid after : τ → Prop}

theorem weaken {call : Call τ α} {shown : Call σ α} (h : Shows view before mid call shown)
    (hmid : ∀ t, mid t → after t) : Shows view before after call shown := by
  intro horizon now t ht
  obtain ⟨hrun, hmid'⟩ := h horizon now t ht
  exact ⟨hrun, hmid _ hmid'⟩

theorem pure (a : α) : Shows view before before (Pure.pure a) (Pure.pure a) := fun _ _ _ ht => ⟨rfl, ht⟩

theorem fail (fault : Fault) : Shows view before before (Call.fail fault : Call τ α) (Call.fail fault) :=
  fun _ _ _ ht => ⟨rfl, ht⟩

theorem now : Shows view before before Call.now Call.now := fun _ _ _ ht => ⟨rfl, ht⟩

theorem sleepUntil (deadline : Nat) :
    Shows view before before (Call.sleepUntil deadline) (Call.sleepUntil deadline) := by
  intro horizon now t ht
  refine ⟨?_, (sleepUntil_state deadline horizon now t).symm ▸ ht⟩
  simp only [Call.sleepUntil]
  split
  · rfl
  · cases horizon with
    | none => rfl
    | some h =>
      dsimp only
      split <;> rfl

theorem bind {first : Call τ α} {first' : Call σ α} {next : α → Call τ β} {next' : α → Call σ β}
    (hfirst : Shows view before mid first first') (hnext : ∀ a, Shows view mid after (next a) (next' a))
    (hmid : ∀ t, mid t → after t) : Shows view before after (first >>= next) (first' >>= next') := by
  intro horizon now t ht
  obtain ⟨hrun, hready⟩ := hfirst horizon now t ht
  rw [bind_run, bind_run, ← hrun]
  revert hready
  rcases first.run horizon now t with ⟨a | _ | _ | _, time, t'⟩ <;> intro hready
  · exact hnext a horizon time t' hready
  all_goals exact ⟨rfl, hmid _ hready⟩

theorem sleep (wait : Nat) : Shows view before before (Call.sleep wait) (Call.sleep wait) :=
  now.bind (fun _ => sleepUntil _) fun _ => id

theorem attempt {call : Call τ Unit} {shown : Call σ Unit} (h : Shows view before after call shown) :
    Shows view before after (Call.attempt call) (Call.attempt shown) := by
  intro horizon now t ht
  obtain ⟨hrun, hafter⟩ := h horizon now t ht
  refine ⟨?_, hafter⟩
  simp only [Call.attempt, ← hrun]
  rfl

theorem within (deadline : Nat) {call late : Call τ α} {call' late' : Call σ α}
    (h : Shows view before before call call') (hlate : Shows view before before late late') :
    Shows view before before (Call.within deadline call late) (Call.within deadline call' late') := by
  intro horizon now t ht
  obtain ⟨hrun, hready⟩ := h (some (earlier (Clock.roundUp deadline) horizon)) now t ht
  simp only [Call.within, ← hrun]
  revert hready
  rcases call.run (some (earlier (Clock.roundUp deadline) horizon)) now t with ⟨_ | _ | _ | _, time, t'⟩ <;>
    intro hready
  · exact ⟨rfl, hready⟩
  · exact ⟨rfl, hready⟩
  · simp only [Ended.through, withinRun]
    split
    · exact hlate horizon time t' hready
    · exact ⟨rfl, hready⟩
  · exact ⟨rfl, hready⟩

theorem each {body : α → Call τ Unit} {body' : α → Call σ Unit}
    (h : ∀ a, Shows view before before (body a) (body' a)) (items : List α) :
    Shows view before before (Call.each items body) (Call.each items body') := by
  intro horizon now t ht
  show (eachRun body horizon items now t).through view = eachRun body' horizon items now (view t) ∧
    before (eachRun body horizon items now t).state
  induction items generalizing now t with
  | nil => exact ⟨rfl, ht⟩
  | cons a items ih =>
    obtain ⟨hrun, hready⟩ := h a horizon now t ht
    simp only [eachRun, ← hrun]
    revert hready
    rcases (body a).run horizon now t with ⟨_ | _ | _ | _, time, t'⟩ <;> intro hready
    · exact ih time t' hready
    all_goals exact ⟨rfl, hready⟩

/-! ### States with a part of one's own -/

theorem own : Shows (Prod.map id view : κ × τ → κ × σ) (before ∘ Prod.snd) (before ∘ Prod.snd) Call.own Call.own :=
  fun _ _ _ ht => ⟨rfl, ht⟩

theorem setOwn (value : κ) : Shows (Prod.map id view : κ × τ → κ × σ) (before ∘ Prod.snd) (before ∘ Prod.snd)
    (Call.setOwn value) (Call.setOwn value) :=
  fun _ _ _ ht => ⟨rfl, ht⟩

theorem inner {call : Call τ α} {shown : Call σ α} (h : Shows view before after call shown) :
    Shows (Prod.map id view : κ × τ → κ × σ) (before ∘ Prod.snd) (after ∘ Prod.snd) (Call.inner call)
      (Call.inner shown) := by
  intro horizon now t ht
  obtain ⟨hrun, hafter⟩ := h horizon now t.2 ht
  refine ⟨?_, hafter⟩
  show _ = Ended.mk (shown.run horizon now (view t.2)).verdict (shown.run horizon now (view t.2)).time
    (t.1, (shown.run horizon now (view t.2)).state)
  rw [← hrun]
  rfl

theorem keeping (wrap : κ → υ) (value : κ) {call : Call (κ × τ) α} {shown : Call (κ × σ) α}
    (h : Shows (Prod.map id view) (before ∘ Prod.snd) (after ∘ Prod.snd) call shown) :
    Shows (Prod.map id view : υ × τ → υ × σ) (before ∘ Prod.snd) (after ∘ Prod.snd) (Call.keeping wrap value call)
      (Call.keeping wrap value shown) := by
  intro horizon now t ht
  obtain ⟨hrun, hafter⟩ := h horizon now (value, t.2) ht
  refine ⟨?_, hafter⟩
  have hrun : shown.run horizon now (value, view t.2) = _ := hrun.symm
  simp only [Call.keeping, Prod.map, hrun]
  rfl

end Call.Shows

/-! ## Sinks that show the same up to a flush -/

/-- Until a first flush has begun, what is asked of a sink does what it does on another one. -/
structure Sink.Shows (view : τ → σ) (ready : τ → Prop) (sink : Sink τ) (shown : Sink σ) : Prop where
  divisible : sink.divisible = shown.divisible
  write : ∀ data, Call.Shows view ready ready (sink.write data) (shown.write data)
  flush : Call.Shows view ready (fun _ => True) sink.flush shown.flush
  reset : Call.Shows view ready ready sink.reset shown.reset

variable {view : τ → σ} {ready : τ → Prop} {sink : Sink τ} {shown : Sink σ}

theorem Call.Shows.anyhow {call : Call τ α} {call' : Call σ α} (h : Call.Shows view ready ready call call') :
    Call.Shows view ready (fun _ => True) call call' :=
  h.weaken fun _ _ => trivial

namespace Pause

theorem shows_settle : Call.Shows (Prod.map id view : Pause × τ → Pause × σ) (ready ∘ Prod.snd) (ready ∘ Prod.snd)
    settle settle := by
  apply Call.Shows.own.bind _ fun _ => id
  intro pause
  split
  · split
    · exact (Call.Shows.setOwn _).bind (fun _ => .sleep _) fun _ => id
    · exact .pure ()
  · exact .pure ()

theorem shows_sink (h : sink.Shows view ready shown) :
    (Pause.sink sink).Shows (Prod.map id view) (ready ∘ Prod.snd) (Pause.sink shown) where
  divisible := h.divisible
  write data := shows_settle.bind (fun _ => (h.write data).inner) fun _ => id
  flush := by
    apply shows_settle.bind _ fun _ _ => trivial
    intro _
    apply h.flush.inner.bind _ fun _ => id
    intro _
    have hown : Call.Shows (Prod.map id view : Pause × τ → Pause × σ) (fun _ => True) (fun _ => True) own own :=
      fun _ _ _ ht => ⟨rfl, ht⟩
    exact hown.bind (fun _ _ _ _ ht => ⟨rfl, ht⟩) fun _ => id
  reset := h.reset.inner

/-- A wait for the body does not show before a flush. -/
theorem shows_beforeBody (inner : Sink σ) :
    (Stage.sink inner).Shows Prod.snd (fun s => ∃ wait, s.1 = .pause (beforeBody wait)) inner where
  divisible := rfl
  write data := by
    rintro horizon now ⟨_, s⟩ ⟨wait, rfl⟩
    exact ⟨rfl, wait, rfl⟩
  flush := by
    rintro horizon now ⟨_, s⟩ ⟨wait, rfl⟩
    refine ⟨?_, trivial⟩
    let ended := (Pause.sink inner).flush.run horizon now (beforeBody wait, s)
    have hrun : ended = _ := push_run inner (beforeBody wait) .flush horizon now s
    show Ended.mk ended.verdict ended.time ended.state.2 = _
    rw [hrun]
    rfl
  reset := by
    rintro horizon now ⟨_, s⟩ ⟨wait, rfl⟩
    exact ⟨rfl, wait, rfl⟩

end Pause

namespace Deadline

theorem shows_expire (h : sink.Shows view ready shown) :
    Call.Shows (Prod.map id view : Deadline × τ → Deadline × σ) (ready ∘ Prod.snd) (ready ∘ Prod.snd)
      (expire sink : Call (Deadline × τ) α) (expire shown) := by
  apply Call.Shows.own.bind _ fun _ => id
  intro d
  dsimp only
  split
  · apply (Call.Shows.setOwn _).bind _ fun _ => id
    intro _
    exact h.reset.inner.attempt.bind (fun _ => .fail _) fun _ => id
  · exact .fail _

theorem shows_writeSlice (h : sink.Shows view ready shown) (slice : Bytes) :
    Call.Shows (Prod.map id view : Deadline × τ → Deadline × σ) (ready ∘ Prod.snd) (ready ∘ Prod.snd)
      (writeSlice sink slice) (writeSlice shown slice) := by
  apply Call.Shows.own.bind _ fun _ => id
  intro d
  apply Call.Shows.now.bind _ fun _ => id
  intro now
  split
  · exact shows_expire h
  · exact (h.write slice).inner.within d.time (shows_expire h)

theorem shows_sink (h : sink.Shows view ready shown) :
    (Deadline.sink sink).Shows (Prod.map id view) (ready ∘ Prod.snd) (Deadline.sink shown) where
  divisible := h.divisible
  write data := by
    simp only [Deadline.sink, h.divisible]
    split
    · exact .each (shows_writeSlice h) (slices data)
    · exact shows_writeSlice h data
  flush := by
    apply Call.Shows.own.bind _ fun _ _ => trivial
    intro d
    apply Call.Shows.now.bind _ fun _ _ => trivial
    intro now
    split
    · exact (shows_expire h).anyhow
    · exact h.flush.inner
  reset := by
    apply Call.Shows.own.bind _ fun _ => id
    intro d
    exact (Call.Shows.setOwn _).bind (fun _ => h.reset.inner) fun _ => id

end Deadline

/-- Stages that make no flush of their own show what the sink behind them shows. -/
theorem Stage.shows_sink (h : sink.Shows view ready shown) :
    (Stage.sink sink).Shows (Prod.map id view) (fun s => ¬s.1.IsOpen ∧ ready s.2) (Stage.sink shown) where
  divisible := h.divisible
  write data := by
    rintro horizon now ⟨stage, t⟩ ⟨hstage, ht⟩
    cases stage with
    | discard => exact ⟨rfl, hstage, ht⟩
    | pause p =>
      obtain ⟨hrun, hready⟩ := ((Pause.shows_sink h).write data).keeping Stage.pause p horizon now (.pause p, t) ht
      exact ⟨hrun, id, hready⟩
    | deadline d =>
      obtain ⟨hrun, hready⟩ :=
        ((Deadline.shows_sink h).write data).keeping Stage.deadline d horizon now (.deadline d, t) ht
      exact ⟨hrun, id, hready⟩
    | framer f => exact absurd trivial hstage
    | meter m => exact absurd trivial hstage
  flush := by
    rintro horizon now ⟨stage, t⟩ ⟨hstage, ht⟩
    cases stage with
    | discard => exact ⟨rfl, trivial⟩
    | pause p =>
      have hflush : Call.Shows _ _ ((fun _ => True) ∘ Prod.snd) _ _ := (Pause.shows_sink h).flush
      exact hflush.keeping Stage.pause p horizon now (.pause p, t) ht
    | deadline d =>
      have hflush : Call.Shows _ _ ((fun _ => True) ∘ Prod.snd) _ _ := (Deadline.shows_sink h).flush
      exact hflush.keeping Stage.deadline d horizon now (.deadline d, t) ht
    | framer f => exact absurd trivial hstage
    | meter m => exact absurd trivial hstage
  reset := by
    rintro horizon now ⟨stage, t⟩ ⟨hstage, ht⟩
    cases stage with
    | discard =>
      obtain ⟨hrun, hready⟩ := h.reset.inner horizon now (Stage.discard, t) ht
      exact ⟨hrun, hstage, hready⟩
    | pause p =>
      obtain ⟨hrun, hready⟩ := (Pause.shows_sink h).reset.keeping Stage.pause p horizon now (.pause p, t) ht
      exact ⟨hrun, id, hready⟩
    | deadline d =>
      obtain ⟨hrun, hready⟩ := (Deadline.shows_sink h).reset.keeping Stage.deadline d horizon now (.deadline d, t) ht
      exact ⟨hrun, id, hready⟩
    | framer f => exact absurd trivial hstage
    | meter m => exact absurd trivial hstage

/-! ## Stacks -/

def endsBehind (stages : List Stage) (inner : Sink σ) (now : Nat) (s : σ) (visits : List (Visit Push)) :
    List (Ended σ Unit) :=
  (ends ((inner.behind stages.length).visits visits) now (Nest.ofStages stages s)).map (Ended.through (Nest.base _))

/-- The calls up to a first flush end in the same ways. -/
theorem Sink.Shows.ends (h : sink.Shows view ready shown) {header : List (Visit Push)} (last : Visit Push)
    (hheader : ∀ visit ∈ header, visit.call ≠ .flush) (now : Nat) {t : τ} (ht : ready t) :
    (Stream.ends (sink.visits (header ++ [last])) now t).map (Ended.through view) =
      Stream.ends (shown.visits (header ++ [last])) now (view t) := by
  induction header generalizing now t with
  | nil =>
    have hpush : Call.Shows view ready (fun _ => True) (sink.push last.call) (shown.push last.call) := by
      cases last.call with
      | write data => exact (h.write data).anyhow
      | flush => exact h.flush
    obtain ⟨hrun, -⟩ := hpush last.horizon (now + last.gap) t ht
    simp only [List.nil_append, visits, List.map_cons, List.map_nil, Stream.ends, ← hrun, ite_self]
  | cons visit header ih =>
    obtain ⟨data, hwrite⟩ : ∃ data, visit.call = .write data := by
      cases hcall : visit.call with
      | write data => exact ⟨data, rfl⟩
      | flush => exact absurd hcall (hheader visit List.mem_cons_self)
    have hlater := ih fun visit hvisit => hheader visit (List.mem_cons_of_mem _ hvisit)
    obtain ⟨hrun, hready⟩ := h.write data visit.horizon (now + visit.gap) t ht
    simp only [List.cons_append, visits, List.map_cons, Stream.ends, hwrite, push, ← hrun]
    by_cases hendless : ((sink.write data).run visit.horizon (now + visit.gap) t).verdict = .endless
    · rw [if_pos hendless, if_pos (show (Ended.through view _).verdict = .endless from hendless)]
      rfl
    · rw [if_neg hendless, if_neg (show ¬(Ended.through view _).verdict = .endless from hendless)]
      exact congrArg (_ :: ·) (hlater _ hready)

private theorem exists_shows_behind {above : List Stage} (habove : ∀ stage ∈ above, ¬stage.IsOpen)
    (below : List Stage) (wait : Nat) (inner : Sink σ) (s : σ) :
    let stages := above ++ .pause (.beforeBody wait) :: below
    ∃ (view : Nest σ stages.length → Nest σ (above ++ below).length) (ready : Nest σ stages.length → Prop),
      (inner.behind stages.length).Shows view ready (inner.behind (above ++ below).length) ∧
        ready (Nest.ofStages stages s) ∧ view (Nest.ofStages stages s) = Nest.ofStages (above ++ below) s ∧
          ∀ t, Nest.base _ (view t) = Nest.base _ t := by
  induction above with
  | nil => exact ⟨Prod.snd, _, Pause.shows_beforeBody (inner.behind below.length), ⟨wait, rfl⟩, rfl, fun _ => rfl⟩
  | cons stage above ih =>
    obtain ⟨view, ready, hshows, hready, hview, hbase⟩ :=
      ih fun other hother => habove other (List.mem_cons_of_mem _ hother)
    exact ⟨Prod.map id view, _, Stage.shows_sink hshows, ⟨habove stage List.mem_cons_self, hready⟩,
      congrArg (Prod.mk stage) hview, fun t => hbase t.2⟩

/-- A wait for the body does not show in the calls up to a first flush, whatever is below it, if the stages above it
make no flush of their own. -/
theorem endsBehind_beforeBody {above : List Stage} (habove : ∀ stage ∈ above, ¬stage.IsOpen) (below : List Stage)
    (wait : Nat) (inner : Sink σ) (now : Nat) (s : σ) {header : List (Visit Push)} (last : Visit Push)
    (hheader : ∀ visit ∈ header, visit.call ≠ .flush) :
    endsBehind (above ++ .pause (.beforeBody wait) :: below) inner now s (header ++ [last]) =
      endsBehind (above ++ below) inner now s (header ++ [last]) := by
  obtain ⟨view, ready, hshows, hready, hview, hbase⟩ := exists_shows_behind habove below wait inner s
  unfold endsBehind
  rw [← hview, ← hshows.ends last hheader now hready, List.map_map]
  refine List.map_congr_left fun ended _ => ?_
  exact congrArg (Ended.mk ended.verdict ended.time) (hbase ended.state).symm

end Stream

/-! ## Policies -/

open TrafficPolicy.Stream

namespace UrlPolicy

variable {σ : Type} {p : UrlPolicy} {b : DelayPolicy}

def outerStages (p : UrlPolicy) (dropping : Bool) (now : Nat) (draws : Draws) : List Stage :=
  (if dropping then [.discard] else []) ++ ((p.get .delay).bind fun d => d.stage? now draws.delay).toList

theorem not_isOpen_outerStages (p : UrlPolicy) (dropping : Bool) (now : Nat) (draws : Draws) :
    ∀ stage ∈ p.outerStages dropping now draws, ¬stage.IsOpen := by
  intro stage hstage
  rcases List.mem_append.mp hstage with hdiscard | hdelay
  · cases dropping with
    | false => cases hdiscard
    | true =>
      obtain rfl := List.mem_singleton.mp hdiscard
      exact id
  · obtain ⟨d, -, hd⟩ := Option.bind_eq_some_iff.mp (Option.mem_toList.mp hdelay)
    unfold DelayPolicy.stage? at hd
    split at hd <;> cases hd <;> exact id

theorem stages_of_body_delay (hb : p.get .body = some b) (hkind : b.kind = .delay) (hbody : b.body = true)
    (dropping : Bool) (now : Nat) (draws : Draws) :
    p.stages dropping now draws = p.outerStages dropping now draws ++
      .pause (.beforeBody (b.sample draws.body)) :: p.openStages now := by
  simp [stages, outerStages, openStages, hb, DelayPolicy.stage?, hkind, hbody]

/-- What has been read for the body is for the body only. -/
theorem Obtained.body_of_get {registry : Registry} (h : Obtained registry p) (hb : p.get .body = some b) :
    b.body = true := by
  obtain ⟨rule, hrule, hslot⟩ := List.exists_of_findSome?_eq_some hb
  exact (h.makes rule hrule .body b hslot).body

/-- A pause of the whole response waits once, in the first call, before that reaches the sink. A pause of the body
waits once, in the call after the first flush that succeeds, before that reaches the sink. With the stages of a policy
that delays the body, the calls up to the first flush end when and how they end without the stage of this delay, and
do to the sink what they do without it. All delays in the slot for the body of a policy that has been read are such. -/
theorem waits_once (inner : Sink σ) (now : Nat) (s : σ) :
    (∀ wait visits, Pause.seen inner (.beforeAll wait) visits now s =
      ends ((inner.visits visits).modify 0 (Visit.delayed wait)) now s) ∧
    (∀ wait visits, Pause.seen inner (.beforeBody wait) visits now s =
      ends ((inner.visits visits).modify (headerEnd visits (Pause.seen inner (.beforeBody wait) visits now s) + 1)
        (Visit.delayed wait)) now s) ∧
    (∀ p : UrlPolicy, ∀ b ∈ p.get .body, b.kind = .delay → b.body = true → ∀ dropping draws,
      p.stages dropping now draws = p.outerStages dropping now draws ++
        .pause (.beforeBody (b.sample draws.body)) :: p.openStages now ∧
      ∀ header last, (∀ visit ∈ header, visit.call ≠ .flush) →
        endsBehind (p.stages dropping now draws) inner now s (header ++ [last]) =
          endsBehind (p.outerStages dropping now draws ++ p.openStages now) inner now s (header ++ [last])) ∧
    ∀ registry p, Obtained registry p → ∀ b ∈ p.get .body, b.body = true := by
  refine ⟨fun wait visits => Pause.seen_of_due wait, fun wait visits => Pause.seen_beforeBody wait, ?_,
    fun registry p h b hb => h.body_of_get hb⟩
  intro p b hb hkind hbody dropping draws
  have hstages := stages_of_body_delay hb hkind hbody dropping now draws
  refine ⟨hstages, fun header last hheader => ?_⟩
  rw [hstages]
  exact endsBehind_beforeBody (p.not_isOpen_outerStages dropping now draws) _ _ inner now s last hheader

/-- A response that may take three seconds and is sent in two pieces: its header is not held, though the body waits for
two seconds. -/
theorem waits_once_after_header :
    ∃ (p : UrlPolicy) (b : DelayPolicy), b ∈ p.get .body ∧ b.kind = .delay ∧ b.body = true ∧ b.nanos = 2000000000 ∧
      (endsBehind (p.stages false 0 ⟨0.0, 0.0⟩) (recorder true {}) 0 {}
        [{ call := .write [1, 2, 3, 4] }, { call := .flush }]).map (fun ended => (ended.verdict, ended.time)) =
          [(.ok (), 0), (.ok (), 0)] := by
  let b : DelayPolicy := { kind := .delay, body := true, seconds := 2.0 }
  let p : UrlPolicy := { rule := { slots := { delay := some { kind := .timeout, seconds := 3.0 }, body := some b,
                                              chunked := some (.blocks 2) } } }
  refine ⟨p, b, rfl, rfl, rfl, by decide +kernel, ?_⟩
  obtain ⟨-, -, hstages, -⟩ := waits_once (recorder true {}) 0 {}
  obtain ⟨-, hheader⟩ := hstages p b rfl rfl rfl false ⟨0.0, 0.0⟩
  rw [show [({ call := .write [1, 2, 3, 4] } : Visit Push), { call := .flush }] =
    [{ call := .write [1, 2, 3, 4] }] ++ [{ call := .flush }] from rfl, hheader _ _ (by simp)]
  decide +kernel

end UrlPolicy

end TrafficPolicy
