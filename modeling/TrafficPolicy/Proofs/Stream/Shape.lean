import TrafficPolicy.Proofs.Stream.Faithful
import TrafficPolicy.Stream.Shape

/-!
# What comes out of the stages of a policy

Behind the stages of a policy that does not drop, a sink receives the bytes that the caller has written, and
each flush when it has all of them. If a call does not succeed, it has received a prefix of them. If the
policy drops, nothing comes out, and no time passes.
-/

namespace TrafficPolicy

namespace Stream

open Call

variable {σ : Type} {view : View σ} {inner : Sink σ}

/-! ## Stages one behind the other -/

/-- The view through a stage, which must not be the one that discards. -/
def View.behindStage (view : View σ) : View (Stage × σ) where
  passes s := s.1 ≠ .discard ∧ view.passes s.2
  trace s := view.trace s.2

def View.behindAll (view : View σ) : (n : Nat) → View (Nest σ n)
  | 0 => view
  | n + 1 => (view.behindAll n).behindStage

namespace Stage

/-- A sink behind a stage is one of the four faithful ones, whatever is asked of it. -/
private theorem exists_keeping (h : Faithful view inner) (s : Stage × σ) (hs : s.1 ≠ .discard) :
    ∃ (τ : Type) (wrap : τ → Stage) (value : τ) (sink : Sink (τ × σ)),
      (∀ value, wrap value ≠ .discard) ∧ Faithful (view.behind τ) sink ∧
        ∀ (action : {τ : Type} → Sink τ → Call τ Unit) (horizon : Option Nat) (now : Nat),
          (use inner action).run horizon now s =
            (keeping wrap value (action sink)).run horizon now s := by
  obtain ⟨stage, s⟩ := s
  cases stage with
  | discard => exact absurd rfl hs
  | pause p => exact ⟨Pause, .pause, p, _, nofun, Pause.faithful_sink h, fun _ _ _ => rfl⟩
  | deadline d => exact ⟨Deadline, .deadline, d, _, nofun, Deadline.faithful_sink h, fun _ _ _ => rfl⟩
  | framer f => exact ⟨Framer, .framer, f, _, nofun, Framer.faithful_sink h, fun _ _ _ => rfl⟩
  | meter m => exact ⟨Meter, .meter, m, _, nofun, Meter.faithful_sink h, fun _ _ _ => rfl⟩

theorem faithful_sink (h : Faithful view inner) : Faithful view.behindStage (sink inner) where
  write data := by
    intro horizon now s hs hpending
    obtain ⟨τ, wrap, value, next, hwrap, hnext, huse⟩ := exists_keeping h s hs.1
    obtain ⟨hpasses, hrest⟩ := hnext.write data horizon now (value, s.2) hs.2 hpending
    simp only [sink, huse]
    exact ⟨⟨hwrap _, hpasses⟩, hrest⟩
  flush := by
    intro horizon now s hs hpending
    obtain ⟨τ, wrap, value, next, hwrap, hnext, huse⟩ := exists_keeping h s hs.1
    obtain ⟨hpasses, hrest⟩ := hnext.flush horizon now (value, s.2) hs.2 hpending
    simp only [sink, huse]
    exact ⟨⟨hwrap _, hpasses⟩, hrest⟩
  reset := by
    intro horizon now s hs
    obtain ⟨τ, wrap, value, next, hwrap, hnext, huse⟩ := exists_keeping h s hs.1
    obtain ⟨hpasses, hrest⟩ := hnext.reset horizon now (value, s.2) hs.2
    simp only [sink, huse]
    exact ⟨⟨hwrap _, hpasses⟩, hrest⟩

end Stage

theorem faithful_behind (h : Faithful view inner) (n : Nat) :
    Faithful (view.behindAll n) (inner.behind n) := by
  induction n with
  | zero => exact h
  | succ n ih => exact Stage.faithful_sink ih

theorem trace_behindAll (n : Nat) (s : Nest σ n) :
    (view.behindAll n).trace s = view.trace (Nest.base n s) := by
  induction n with
  | zero => rfl
  | succ n ih => exact ih s.2

theorem passes_ofStages {stages : List Stage} (hstages : .discard ∉ stages) {s : σ} (hs : view.passes s) :
    (view.behindAll stages.length).passes (Nest.ofStages stages s) := by
  induction stages with
  | nil => exact hs
  | cons stage stages ih =>
    simp only [List.mem_cons, not_or] at hstages
    exact ⟨Ne.symm hstages.1, ih hstages.2⟩

/-! ## Callers -/

def given (pushes : List (Nat × Push)) : Bytes :=
  bytesOf (pushes.map Prod.snd)

def waited (pushes : List (Nat × Push)) : Nat :=
  pushes.foldr (fun entry rest => entry.1 + rest) 0

section

variable {sink : Sink σ} {horizon : Option Nat}

theorem Sink.pushAll_append (sink : Sink σ) {before : List (Nat × Push)} {now : Nat} {s : σ}
    (h : (sink.pushAll horizon before now s).verdict = .ok ()) (after : List (Nat × Push)) :
    sink.pushAll horizon (before ++ after) now s =
      sink.pushAll horizon after (sink.pushAll horizon before now s).time
        (sink.pushAll horizon before now s).state := by
  induction before generalizing now s with
  | nil => rfl
  | cons entry before ih =>
    obtain ⟨wait, push⟩ := entry
    simp only [List.cons_append, Sink.pushAll] at h ⊢
    revert h
    rcases (sink.push push).run horizon (now + wait) s with ⟨_ | _ | _ | _, time, s'⟩ <;> intro h
    · exact ih h
    all_goals cases h

theorem Sink.pushAll_of_append (sink : Sink σ) {before after : List (Nat × Push)} {now : Nat} {s : σ}
    (h : (sink.pushAll horizon (before ++ after) now s).verdict = .ok ()) :
    (sink.pushAll horizon before now s).verdict = .ok () := by
  induction before generalizing now s with
  | nil => rfl
  | cons entry before ih =>
    obtain ⟨wait, push⟩ := entry
    simp only [List.cons_append, Sink.pushAll] at h ⊢
    revert h
    rcases (sink.push push).run horizon (now + wait) s with ⟨_ | _ | _ | _, time, s'⟩ <;> intro h
    · exact ih h
    all_goals cases h

theorem Sink.pushAll_singleton (wait : Nat) (push : Push) (now : Nat) (s : σ) :
    sink.pushAll horizon [(wait, push)] now s = (sink.push push).run horizon (now + wait) s := by
  simp only [Sink.pushAll]
  rcases (sink.push push).run horizon (now + wait) s with ⟨_ | _ | _ | _, time, s'⟩ <;> rfl

theorem Faithful.push (h : Faithful view sink) (push : Push) :
    Carries view (sink.push push) push.bytes fun _ => [] := by
  cases push with
  | write data => exact h.write data
  | flush => exact h.flush.carries []

/-- The bytes that have come through a faithful sink when a caller ends. -/
theorem Faithful.pushAll (h : Faithful view sink) (horizon : Option Nat) (pushes : List (Nat × Push))
    (now : Nat) {s : σ} (hs : view.passes s) (hpending : (view.trace s).pending = none) :
    view.passes (sink.pushAll horizon pushes now s).state ∧
      ∃ new, (view.trace (sink.pushAll horizon pushes now s).state).done = (view.trace s).done ++ new ∧
        bytesOf (new ++ (view.trace (sink.pushAll horizon pushes now s).state).pending.toList) <+:
          given pushes ∧
        ((sink.pushAll horizon pushes now s).verdict = .ok () →
          (view.trace (sink.pushAll horizon pushes now s).state).pending = none ∧
            bytesOf new = given pushes) := by
  induction pushes generalizing now s with
  | nil => exact ⟨hs, [], (List.append_nil _).symm, by simp [Sink.pushAll, hpending, given],
      fun _ => ⟨hpending, rfl⟩⟩
  | cons entry pushes ih =>
    obtain ⟨wait, push⟩ := entry
    obtain ⟨hpasses, new, hdone, hprefix, hok⟩ := h.push push horizon (now + wait) s hs hpending
    have hgiven : given ((wait, push) :: pushes) = push.bytes ++ given pushes := rfl
    simp only [Sink.pushAll]
    revert hpasses hdone hprefix hok
    rcases (sink.push push).run horizon (now + wait) s with ⟨_ | _ | _ | _, time, s'⟩ <;>
      intro hpasses hdone hprefix hok
    · obtain ⟨hpending', hdata⟩ := hok () rfl
      obtain ⟨hpasses', new', hdone', hprefix', hok'⟩ := ih time hpasses hpending'
      rw [List.append_nil] at hdata
      refine ⟨hpasses', new ++ new', ?_, ?_, fun hv => ?_⟩
      · rw [← List.append_assoc, ← hdone]
        exact hdone'
      · rw [hgiven, ← hdata, List.append_assoc, bytesOf_append]
        exact (List.prefix_append_right_inj _).mpr hprefix'
      · obtain ⟨hpending'', hdata'⟩ := hok' hv
        exact ⟨hpending'', by rw [hgiven, bytesOf_append, hdata, hdata']⟩
    all_goals
      exact ⟨hpasses, new, hdone, hprefix.trans (List.prefix_append _ _), nofun⟩

end

/-! ## Relaying -/

/-- The run of a caller in front of some stages, behind which is a traced sink. -/
def relayRun (stages : List Stage) (inner : Sink σ) (horizon : Option Nat) (now : Nat) (s : σ)
    (pushes : List (Nat × Push)) : Ended (Nest (Trace × σ) stages.length) Unit :=
  (inner.traced.behind stages.length).pushAll horizon pushes now (Nest.ofStages stages ({}, s))

def relay (stages : List Stage) (inner : Sink σ) (horizon : Option Nat) (now : Nat) (s : σ)
    (pushes : List (Nat × Push)) : Ended (Trace × σ) Unit :=
  let ended := relayRun stages inner horizon now s pushes
  ⟨ended.verdict, ended.time, Nest.base _ ended.state⟩

section

variable {stages : List Stage} {horizon : Option Nat} {before : List (Nat × Push)} {now : Nat} {s : σ}

private theorem trace_relayRun (pushes : List (Nat × Push)) :
    ((Sink.tracedView σ).behindAll stages.length).trace (relayRun stages inner horizon now s pushes).state =
      (relay stages inner horizon now s pushes).state.1 :=
  trace_behindAll _ _

theorem relay_nil : (relay stages inner horizon now s []).state.1 = {} :=
  congrArg Prod.fst (Nest.base_ofStages stages (({} : Trace), s))

private theorem relayRun_append (h : (relay stages inner horizon now s before).verdict = .ok ())
    (after : List (Nat × Push)) :
    relayRun stages inner horizon now s (before ++ after) =
      (inner.traced.behind stages.length).pushAll horizon after
        (relayRun stages inner horizon now s before).time (relayRun stages inner horizon now s before).state :=
  (inner.traced.behind stages.length).pushAll_append h after

theorem verdict_of_relay_append {after : List (Nat × Push)}
    (h : (relay stages inner horizon now s (before ++ after)).verdict = .ok ()) :
    (relay stages inner horizon now s before).verdict = .ok () :=
  (inner.traced.behind stages.length).pushAll_of_append h

/-- After calls that have succeeded the next one finds everything as the first one has. -/
private theorem relay_ready (hstages : .discard ∉ stages)
    (h : (relay stages inner horizon now s before).verdict = .ok ()) :
    ((Sink.tracedView σ).behindAll stages.length).passes (relayRun stages inner horizon now s before).state ∧
      (relay stages inner horizon now s before).state.1.pending = none := by
  have hstart : ((Sink.tracedView σ).behindAll stages.length).trace (Nest.ofStages stages ({}, s)) = {} :=
    (trace_behindAll _ _).trans (congrArg Prod.fst (Nest.base_ofStages stages (({} : Trace), s)))
  have hpasses : ((Sink.tracedView σ).behindAll stages.length).passes (Nest.ofStages stages ({}, s)) :=
    passes_ofStages hstages trivial
  obtain ⟨hpasses', _, _, _, hok⟩ := (faithful_behind (Sink.faithful_traced inner) stages.length).pushAll
    horizon before now hpasses (by rw [hstart])
  rw [← trace_relayRun]
  exact ⟨hpasses', (hok h).1⟩

/-- After calls that have succeeded the sink sees a prefix of what is given with the next ones. -/
theorem relay_append (hstages : .discard ∉ stages)
    (h : (relay stages inner horizon now s before).verdict = .ok ()) (after : List (Nat × Push)) :
    ∃ new, (relay stages inner horizon now s (before ++ after)).state.1.done =
        (relay stages inner horizon now s before).state.1.done ++ new ∧
      bytesOf (new ++ (relay stages inner horizon now s (before ++ after)).state.1.pending.toList) <+:
        given after ∧
      ((relay stages inner horizon now s (before ++ after)).verdict = .ok () →
        (relay stages inner horizon now s (before ++ after)).state.1.pending = none ∧
          bytesOf new = given after) := by
  obtain ⟨hpasses, hpending⟩ := relay_ready hstages h
  rw [← trace_relayRun] at hpending
  have hafter := (faithful_behind (Sink.faithful_traced inner) stages.length).pushAll
    horizon after (relayRun stages inner horizon now s before).time hpasses hpending
  rw [← relayRun_append h] at hafter
  simp only [← trace_relayRun]
  exact hafter.2

/-- After calls that have succeeded a flush comes out as a flush and nothing else. -/
theorem relay_flush (hstages : .discard ∉ stages)
    (h : (relay stages inner horizon now s before).verdict = .ok ()) {wait : Nat}
    (hflush : (relay stages inner horizon now s (before ++ [(wait, .flush)])).verdict = .ok ()) :
    (relay stages inner horizon now s (before ++ [(wait, .flush)])).state.1.done =
      (relay stages inner horizon now s before).state.1.done ++ [.flush] := by
  obtain ⟨hpasses, hpending⟩ := relay_ready hstages h
  rw [← trace_relayRun] at hpending
  obtain ⟨-, new, hdone, -, hok⟩ := (faithful_behind (Sink.faithful_traced inner) stages.length).flush horizon
    ((relayRun stages inner horizon now s before).time + wait) _ hpasses hpending
  have hrun := (relayRun_append h [(wait, .flush)]).trans (Sink.pushAll_singleton _ _ _ _)
  have hverdict : (relayRun stages inner horizon now s (before ++ [(wait, .flush)])).verdict = .ok () := hflush
  rw [hrun] at hverdict
  rw [← trace_relayRun, ← trace_relayRun, hrun]
  rw [(hok hverdict).2] at hdone
  exact hdone

/-- Wherever a caller ends, the sink has received a prefix of what has been given. -/
theorem relay_received (hstages : .discard ∉ stages) (pushes : List (Nat × Push)) :
    (relay stages inner horizon now s pushes).state.1.received <+: given pushes ∧
      ((relay stages inner horizon now s pushes).verdict = .ok () →
        (relay stages inner horizon now s pushes).state.1.pending = none ∧
          (relay stages inner horizon now s pushes).state.1.received = given pushes) := by
  obtain ⟨new, hdone, hprefix, hok⟩ := @relay_append σ inner stages horizon [] now s hstages rfl pushes
  simp only [List.nil_append, relay_nil] at hdone hprefix hok
  refine ⟨?_, fun h => ?_⟩
  · rw [Trace.received, Trace.begun, hdone]
    exact hprefix
  · obtain ⟨hpending, hdata⟩ := hok h
    refine ⟨hpending, ?_⟩
    rw [Trace.received, Trace.begun, hdone, hpending]
    simpa using hdata

end

/-! ## Discarding -/

private theorem discard_push {n : Nat} (push : Push) (horizon : Option Nat) (now : Nat) (s : Nest σ n) :
    ((Stage.sink (inner.behind n)).push push).run horizon now (.discard, s) =
      ⟨.ok (), now, (.discard, s)⟩ := by
  cases push <;> rfl

private theorem discard_pushAll {n : Nat} (horizon : Option Nat) (pushes : List (Nat × Push)) (now : Nat)
    (s : Nest σ n) :
    (Stage.sink (inner.behind n)).pushAll horizon pushes now (.discard, s) =
      ⟨.ok (), now + waited pushes, (.discard, s)⟩ := by
  induction pushes generalizing now with
  | nil => rfl
  | cons entry pushes ih =>
    obtain ⟨wait, push⟩ := entry
    simp only [Sink.pushAll, discard_push, ih, waited, List.foldr_cons, Nat.add_assoc]

/-- Behind a stage that discards nothing happens, and only the caller takes time. -/
theorem relay_discard (stages : List Stage) (inner : Sink σ) (horizon : Option Nat) (now : Nat) (s : σ)
    (pushes : List (Nat × Push)) :
    relay (.discard :: stages) inner horizon now s pushes =
      ⟨.ok (), now + waited pushes, {}, s⟩ := by
  have hrun : relayRun (.discard :: stages) inner horizon now s pushes =
      ⟨.ok (), now + waited pushes, (.discard, Nest.ofStages stages ({}, s))⟩ :=
    discard_pushAll horizon pushes now _
  simp only [relay, hrun]
  exact congrArg (Ended.mk _ _) (Nest.base_ofStages stages (({} : Trace), s))

end Stream

/-! ## Policies -/

open TrafficPolicy.Stream

namespace UrlPolicy

variable {σ : Type}

/-- The stages of a policy that does not drop let bytes through. -/
theorem discard_not_mem_stages (p : UrlPolicy) (now : Nat) (draws : Draws) :
    .discard ∉ p.stages false now draws := by
  have hdelay (d : DelayPolicy) (factor : Float) : d.stage? now factor ≠ some .discard := by
    unfold DelayPolicy.stage?
    split <;> simp
  have hframing (framing : Framing) : framing.stage? ≠ some .discard := by
    unfold Framing.stage?
    split <;> simp
  simp only [stages, Bool.false_eq_true, if_false, List.nil_append, List.mem_append, Option.mem_toList,
    Option.bind_eq_some_iff, Option.map_eq_some_iff, not_or, not_exists, not_and]
  refine ⟨⟨⟨fun d _ => hdelay d _, fun d _ => hdelay d _⟩, fun framing _ => hframing framing⟩, ?_⟩
  simp

theorem stages_dropping (p : UrlPolicy) (now : Nat) (draws : Draws) :
    p.stages true now draws = .discard :: p.stages false now draws := rfl

/-- What a sink has seen when a caller ends, behind the stages of a policy for a response that begins
at `now`. -/
def serve (p : UrlPolicy) (dropping : Bool) (draws : Draws) (inner : Sink σ) (horizon : Option Nat)
    (now : Nat) (s : σ) (pushes : List (Nat × Push)) : Ended (Trace × σ) Unit :=
  relay (p.stages dropping now draws) inner horizon now s pushes

/-- If all calls succeed, the sink has received what the caller has written, and at each flush all that had
been written before it. If a call does not succeed, the sink has received a prefix of what had been given by
then. If the policy drops, the sink sees nothing, every call succeeds, and no time passes but that of the
caller. -/
theorem serve_relays (p : UrlPolicy) (draws : Draws) (inner : Sink σ) (horizon : Option Nat) (now : Nat)
    (s : σ) :
    (∀ pushes, (p.serve false draws inner horizon now s pushes).verdict = .ok () →
      (p.serve false draws inner horizon now s pushes).state.1.pending = none ∧
      (p.serve false draws inner horizon now s pushes).state.1.received = given pushes ∧
      ∀ before wait after, pushes = before ++ (wait, .flush) :: after →
        (p.serve false draws inner horizon now s before).state.1.received = given before ∧
        (p.serve false draws inner horizon now s (before ++ [(wait, .flush)])).state.1.done =
          (p.serve false draws inner horizon now s before).state.1.done ++ [.flush] ∧
        (p.serve false draws inner horizon now s (before ++ [(wait, .flush)])).state.1.done <+:
          (p.serve false draws inner horizon now s pushes).state.1.done) ∧
    (∀ before call, (p.serve false draws inner horizon now s before).verdict = .ok () →
      (p.serve false draws inner horizon now s (before ++ [call])).verdict ≠ .ok () →
      (p.serve false draws inner horizon now s (before ++ [call])).state.1.received <+:
        given (before ++ [call])) ∧
    ∀ pushes, p.serve true draws inner horizon now s pushes =
      ⟨.ok (), now + waited pushes, {}, s⟩ := by
  have hstages := p.discard_not_mem_stages now draws
  refine ⟨fun pushes hok => ?_, fun before call _ _ => (relay_received hstages _).1, fun pushes => ?_⟩
  · obtain ⟨hpending, hreceived⟩ := (relay_received hstages pushes).2 hok
    refine ⟨hpending, hreceived, ?_⟩
    rintro before wait after rfl
    have hsplit : before ++ (wait, .flush) :: after = (before ++ [(wait, .flush)]) ++ after := by simp
    rw [hsplit] at hok ⊢
    have hflush : (p.serve false draws inner horizon now s (before ++ [(wait, .flush)])).verdict = .ok () :=
      verdict_of_relay_append hok
    have hbefore : (p.serve false draws inner horizon now s before).verdict = .ok () :=
      verdict_of_relay_append hflush
    obtain ⟨new, hnew, -⟩ := relay_append hstages hflush after
    exact ⟨((relay_received hstages before).2 hbefore).2, relay_flush hstages hbefore hflush, new, hnew.symm⟩
  · unfold serve
    rw [stages_dropping]
    exact relay_discard _ _ _ _ _ _

end UrlPolicy

end TrafficPolicy
