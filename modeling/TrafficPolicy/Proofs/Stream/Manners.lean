import TrafficPolicy.Proofs.Stream.Arrivals

/-!
# Manners of a sink

The manners of a sink are the courses that its calls follow. Between the calls of the sink behind it a stage
does two things: it changes its own state, and it waits. So the manners of a sink behind a stage are put
together from those of the sink, and it is enough to say how the two belong together. A deadline is the one
stage that also breaks the connection off of its own accord, and it is shut from then on.
-/

namespace TrafficPolicy.Stream

open Call

variable {σ τ α β : Type}

/-! ## What calls leave as it is -/

namespace Call

/-- Nothing but the own part of the state is changed. -/
def Still (call : Call (τ × σ) α) : Prop :=
  ∀ horizon now s, (call.run horizon now s).state.2 = s.2

theorem sleepUntil_state (deadline : Nat) (horizon : Option Nat) (now : Nat) (s : σ) :
    ((sleepUntil deadline).run horizon now s).state = s := by
  simp only [sleepUntil]
  split
  · rfl
  · cases horizon with
    | none => rfl
    | some h =>
      dsimp only
      split <;> rfl

theorem still_pure (a : α) : Still (pure a : Call (τ × σ) α) := fun _ _ _ => rfl

theorem still_now : Still (now : Call (τ × σ) Nat) := fun _ _ _ => rfl

theorem still_own : Still (own : Call (τ × σ) τ) := fun _ _ _ => rfl

theorem still_setOwn (value : τ) : Still (setOwn value : Call (τ × σ) Unit) := fun _ _ _ => rfl

theorem still_sleepUntil (deadline : Nat) : Still (sleepUntil deadline : Call (τ × σ) Unit) :=
  fun horizon now s => congrArg Prod.snd (sleepUntil_state deadline horizon now s)

theorem still_bind {first : Call (τ × σ) α} {next : α → Call (τ × σ) β} (hfirst : Still first)
    (hnext : ∀ a, Still (next a)) : Still (first >>= next) := by
  intro horizon now s
  rw [bind_run]
  have h := hfirst horizon now s
  revert h
  rcases first.run horizon now s with ⟨a | _ | _ | _, time, t⟩ <;> intro h
  · exact (hnext a horizon time t).trans h
  all_goals exact h

/-- A call with a deadline runs as it is, or it is followed by what comes after the deadline. -/
theorem within_run (deadline : Nat) (call late : Call σ α) (horizon : Option Nat) (now : Nat) (s : σ) :
    (within deadline call late).run horizon now s =
        call.run (some (earlier (Clock.roundUp deadline) horizon)) now s ∨
      (within deadline call late).run horizon now s =
        late.run horizon (call.run (some (earlier (Clock.roundUp deadline) horizon)) now s).time
          (call.run (some (earlier (Clock.roundUp deadline) horizon)) now s).state := by
  simp only [within]
  rcases call.run (some (earlier (Clock.roundUp deadline) horizon)) now s with ⟨_ | _ | _ | _, time, t⟩
  · exact .inl rfl
  · exact .inl rfl
  · simp only [withinRun]
    split
    · exact .inr rfl
    · exact .inl rfl
  · exact .inl rfl

end Call

theorem Pause.still_settle : Still (settle : Call (Pause × σ) Unit) := by
  unfold settle
  apply still_bind still_own
  intro pause
  split
  · split
    · apply still_bind (still_setOwn _)
      intro _
      exact still_bind still_now fun _ => still_sleepUntil _
    · exact still_pure ()
  · exact still_pure ()

/-- The connection is broken off once, and the call does not succeed. -/
theorem Deadline.expire_run (inner : Sink σ) (horizon : Option Nat) (now : Nat) (d : Deadline) (s : σ) :
    (∀ a, ((expire inner : Call (Deadline × σ) α).run horizon now (d, s)).verdict ≠ .ok a) ∧
      if d.expired then ((expire inner : Call (Deadline × σ) α).run horizon now (d, s)).time = now ∧
        ((expire inner : Call (Deadline × σ) α).run horizon now (d, s)).state = (d, s)
      else ((expire inner : Call (Deadline × σ) α).run horizon now (d, s)).time =
          (inner.reset.run horizon now s).time ∧
        ((expire inner : Call (Deadline × σ) α).run horizon now (d, s)).state =
          ({ d with expired := true }, (inner.reset.run horizon now s).state) := by
  obtain ⟨time, expired⟩ := d
  cases expired with
  | true =>
    refine ⟨?_, rfl, rfl⟩
    intro a hok
    cases hok
  | false =>
    simp only [expire, bind_run, own, Call.state, followRun, setOwn, Call.modify, finish, attempt, Call.inner,
      pure, give, id_eq, Bool.not_false, if_true, Bool.false_eq_true, if_false]
    rcases inner.reset.run horizon now s with ⟨_ | _ | _ | _, time, t⟩
    all_goals
      refine ⟨?_, rfl, rfl⟩
      intro a hok
      cases hok

/-! ## Manners -/

def Course.on (view : τ → σ) (course : Course σ) : Course τ where
  rel now s time t := course.rel now (view s) time (view t)
  refl now s := course.refl now (view s)
  trans h h' := course.trans h h'

structure Manners (σ : Type) where
  write : Course σ
  flush : Course σ
  reset : Course σ
  /-- To wait is nothing that a flush may not do. -/
  waits : ∀ {now time : Nat} (s : σ), now ≤ time → flush.rel now s time s
  /-- A write may do all that a flush may do. -/
  write_of_flush : ∀ {now time : Nat} {s t : σ}, flush.rel now s time t → write.rel now s time t

def Manners.on (view : τ → σ) (manners : Manners σ) : Manners τ where
  write := manners.write.on view
  flush := manners.flush.on view
  reset := manners.reset.on view
  waits s h := manners.waits (view s) h
  write_of_flush h := manners.write_of_flush h

structure Sink.Obeys (manners : Manners σ) (sink : Sink σ) : Prop where
  write : ∀ data horizon, Follows manners.write horizon (sink.write data)
  flush : ∀ horizon, Follows manners.flush horizon sink.flush
  reset : ∀ horizon, Follows manners.reset horizon sink.reset

variable {manners : Manners σ} {horizon : Option Nat} {inner : Sink σ}

theorem Call.Still.follows_flush {call : Call (τ × σ) α} (h : Still call) :
    Follows (manners.flush.on Prod.snd) horizon call := by
  intro now s
  show manners.flush.rel now s.2 _ (call.run horizon now s).state.2
  rw [h horizon now s]
  exact manners.waits s.2 (call.now_le horizon now s)

theorem Call.Still.follows_write {call : Call (τ × σ) α} (h : Still call) :
    Follows (manners.write.on Prod.snd) horizon call :=
  fun now s => manners.write_of_flush (h.follows_flush now s)

theorem Sink.Obeys.inner_write (h : inner.Obeys manners) (data : Bytes) :
    Follows (manners.write.on (Prod.snd (α := τ))) horizon (Call.inner (inner.write data)) :=
  fun now s => h.write data horizon now s.2

theorem Sink.Obeys.inner_flush (h : inner.Obeys manners) :
    Follows (manners.write.on (Prod.snd (α := τ))) horizon (Call.inner inner.flush) :=
  fun now s => manners.write_of_flush (h.flush horizon now s.2)

/-! ## Stages that are never shut -/

theorem Pause.obeys_sink (h : inner.Obeys manners) : (sink inner).Obeys (manners.on Prod.snd) where
  write data horizon := by
    apply follows_bind still_settle.follows_write
    intro _
    exact h.inner_write data
  flush horizon := by
    apply follows_bind still_settle.follows_flush
    intro _
    apply follows_bind (fun now s => h.flush horizon now s.2)
    intro _
    exact (still_bind still_own fun pause => still_setOwn _).follows_flush
  reset horizon now s := h.reset horizon now s.2

theorem Framer.follows_send (h : inner.Obeys manners) (piece : Piece) :
    Follows (manners.write.on Prod.snd) horizon (send inner piece) := by
  apply follows_bind (still_setOwn piece.before).follows_write
  intro _
  apply follows_bind (h.inner_write piece.bytes)
  intro _
  apply follows_bind h.inner_flush
  intro _
  exact (still_setOwn piece.after).follows_write

theorem Framer.obeys_sink (h : inner.Obeys manners) : (sink inner).Obeys (manners.on Prod.snd) where
  write data _ now s := follows_each (s.1.pieces data) (fun piece _ => follows_send h piece) now s
  flush horizon now s := h.flush horizon now s.2
  reset horizon now s := h.reset horizon now s.2

private theorem Meter.follows_round (h : inner.Obeys manners) (rest : Bytes) :
    Follows (manners.write.on Prod.snd) horizon (round inner rest) := by
  unfold round
  split
  · exact follows_pure _
  · apply follows_bind follows_now
    intro now
    apply follows_bind still_own.follows_write
    intro meter
    apply follows_bind (still_setOwn _).follows_write
    intro _
    dsimp only
    split
    · apply follows_bind (still_bind still_now fun _ => still_sleepUntil _).follows_write
      intro _
      exact follows_pure _
    · apply follows_bind (h.inner_write _)
      intro _
      apply follows_bind h.inner_flush
      intro _
      apply follows_bind (still_setOwn _).follows_write
      intro _
      exact follows_pure _

theorem Meter.obeys_sink (h : inner.Obeys manners) : (sink inner).Obeys (manners.on Prod.snd) where
  write data horizon := by
    simp only [sink]
    split
    · apply follows_bind still_own.follows_write
      intro meter
      apply follows_bind follows_horizon
      intro _
      exact follows_repeatFor (follows_round h)
    · apply follows_bind follows_now
      intro now
      apply follows_bind still_own.follows_write
      intro meter
      apply follows_bind (h.inner_write data)
      intro _
      exact (still_sleepUntil _).follows_write
  flush horizon now s := h.flush horizon now s.2
  reset horizon now s := h.reset horizon now s.2

/-! ## All stages -/

namespace Stage

inductive Kind where
  | discard
  | pause
  | deadline
  | framer
  | meter
deriving DecidableEq

def kind : Stage → Kind
  | .discard => .discard
  | .pause _ => .pause
  | .deadline _ => .deadline
  | .framer _ => .framer
  | .meter _ => .meter

def IsShut : Stage → Prop
  | .deadline d => d.expired = true
  | _ => False

end Stage

/-- What a stage adds to the manners of the sink behind it: nothing while it is not shut, and when it has broken
the connection off it is shut. -/
structure Manners.Through (outer : Manners (Stage × σ)) (manners : Manners σ) : Prop where
  write : ∀ {now time : Nat} {a b : Stage} {s t : σ}, ¬a.IsShut → a.kind = b.kind →
    manners.write.rel now s time t → outer.write.rel now (a, s) time (b, t)
  flush : ∀ {now time : Nat} {a b : Stage} {s t : σ}, ¬a.IsShut → a.kind = b.kind →
    manners.flush.rel now s time t → outer.flush.rel now (a, s) time (b, t)
  shut : ∀ {now time : Nat} {a b : Stage} {s t : σ}, a.kind = b.kind → b.IsShut →
    manners.reset.rel now s time t → outer.flush.rel now (a, s) time (b, t)
  reset : ∀ {now time : Nat} {a b : Stage} {s t : σ}, a.kind = b.kind → (a.IsShut → b.IsShut) →
    manners.reset.rel now s time t → outer.reset.rel now (a, s) time (b, t)

variable {outer : Manners (Stage × σ)}

namespace Deadline

theorem not_isShut {d : Deadline} {now : Nat} (h : ¬d.isOver now = true) : ¬(Stage.deadline d).IsShut := by
  intro hshut
  have hexpired : d.expired = true := hshut
  exact h (by rw [isOver, hexpired, Bool.true_or])

def asStage (s : Deadline × σ) : Stage × σ := (.deadline s.1, s.2)

private theorem follows_expire (through : outer.Through manners) (h : inner.Obeys manners) :
    Follows (outer.flush.on asStage) horizon (expire inner : Call (Deadline × σ) α) := by
  intro now ⟨d, s⟩
  have hrun := (expire_run (α := α) inner horizon now d s).2
  show outer.flush.rel now _ _ (asStage _)
  by_cases hd : d.expired = true
  · rw [if_pos hd] at hrun
    rw [hrun.1, hrun.2]
    exact outer.flush.refl now (asStage (d, s))
  · rw [if_neg hd] at hrun
    rw [hrun.1, hrun.2]
    exact through.shut rfl rfl (h.reset horizon now s)

private theorem follows_writeSlice (through : outer.Through manners) (h : inner.Obeys manners) (slice : Bytes) :
    Follows (outer.write.on asStage) horizon (writeSlice inner slice) := by
  intro now ⟨d, s⟩
  have hexpire : Follows (outer.write.on asStage) horizon (expire inner : Call (Deadline × σ) Unit) :=
    fun now s => outer.write_of_flush (follows_expire through h now s)
  rw [writeSlice_run]
  split
  · exact hexpire now (d, s)
  · rename_i hnot
    have hwrite : ∀ limit, outer.write.rel now (asStage (d, s)) ((inner.write slice).run limit now s).time
        (asStage (d, ((inner.write slice).run limit now s).state)) :=
      fun limit => through.write (not_isShut hnot) rfl (h.write slice limit now s)
    -- What the sink has been asked for before the deadline is as it would be without one.
    rcases within_run d.time (Call.inner (inner.write slice)) (expire inner) horizon now (d, s) with hrun | hrun
    · rw [hrun]
      exact hwrite _
    · rw [hrun]
      exact outer.write.trans (hwrite _) (hexpire _ _)

theorem obeys_sink (through : outer.Through manners) (h : inner.Obeys manners) :
    (sink inner).Obeys (outer.on asStage) where
  write data horizon := by
    simp only [sink]
    split
    · exact follows_each _ fun slice _ => follows_writeSlice through h slice
    · exact follows_writeSlice through h data
  flush horizon := by
    rintro now ⟨d, s⟩
    rw [flush_run]
    split
    · exact follows_expire through h now (d, s)
    · rename_i hnot
      exact through.flush (not_isShut hnot) rfl (h.flush horizon now s)
  reset horizon now s := through.reset rfl (fun _ => rfl) (h.reset horizon now s.2)

end Deadline

theorem Stage.obeys_sink (through : outer.Through manners) (h : inner.Obeys manners) :
    (sink inner).Obeys outer where
  -- Of the five kinds only a deadline can be shut, so the others have the manners of the sink behind them.
  write data horizon := by
    intro now ⟨stage, s⟩
    cases stage with
    | discard => exact outer.write.refl now _
    | pause p => exact through.write id rfl ((Pause.obeys_sink h).write data horizon now (p, s))
    | deadline d => exact (Deadline.obeys_sink through h).write data horizon now (d, s)
    | framer f => exact through.write id rfl ((Framer.obeys_sink h).write data horizon now (f, s))
    | meter m => exact through.write id rfl ((Meter.obeys_sink h).write data horizon now (m, s))
  flush horizon := by
    intro now ⟨stage, s⟩
    cases stage with
    | discard => exact outer.flush.refl now _
    | pause p => exact through.flush id rfl ((Pause.obeys_sink h).flush horizon now (p, s))
    | deadline d => exact (Deadline.obeys_sink through h).flush horizon now (d, s)
    | framer f => exact through.flush id rfl ((Framer.obeys_sink h).flush horizon now (f, s))
    | meter m => exact through.flush id rfl ((Meter.obeys_sink h).flush horizon now (m, s))
  reset horizon := by
    intro now ⟨stage, s⟩
    cases stage with
    | discard => exact through.reset rfl id (h.reset horizon now s)
    | pause p => exact through.reset rfl id ((Pause.obeys_sink h).reset horizon now (p, s))
    | deadline d => exact (Deadline.obeys_sink through h).reset horizon now (d, s)
    | framer f => exact through.reset rfl id ((Framer.obeys_sink h).reset horizon now (f, s))
    | meter m => exact through.reset rfl id ((Meter.obeys_sink h).reset horizon now (m, s))

theorem obeys_behind {manners : (n : Nat) → Manners (Nest σ n)} (h : inner.Obeys (manners 0))
    (through : ∀ n, (manners (n + 1)).Through (manners n)) (n : Nat) : (inner.behind n).Obeys (manners n) := by
  induction n with
  | zero => exact h
  | succ n ih => exact Stage.obeys_sink (through n) ih

/-- A caller that goes on after calls that fail follows the course of the writes. -/
theorem Sink.Obeys.pushOn (h : inner.Obeys manners) (calls : List (Nat × Push)) (now : Nat) (s : σ) :
    manners.write.rel now s (inner.pushOn calls now s).time (inner.pushOn calls now s).state := by
  induction calls generalizing now s with
  | nil => exact manners.write.refl now s
  | cons call calls ih =>
    obtain ⟨gap, push⟩ := call
    -- To wait for a call is no more than a flush may do.
    have hgap : manners.flush.rel now s (now + gap) s := manners.waits s (Nat.le_add_right now gap)
    have hpush : Follows manners.write none (inner.push push) := by
      cases push with
      | write data => exact h.write data none
      | flush => exact fun now s => manners.write_of_flush (h.flush none now s)
    have hcall := manners.write.trans (manners.write_of_flush hgap) (hpush (now + gap) s)
    simp only [Sink.pushOn]
    revert hcall
    rcases (inner.push push).run none (now + gap) s with ⟨_ | _ | _ | _, time, t⟩ <;> intro hcall
    · exact manners.write.trans hcall (ih time t)
    · exact manners.write.trans hcall (ih time t)
    · exact manners.write.trans hcall (ih time t)
    · exact hcall

end TrafficPolicy.Stream
