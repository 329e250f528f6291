import TrafficPolicy.Proofs.Stream.Arrivals

/-!
# Stages keep to the horizon

A call through stages may wait in any of them. Whatever the stages are, nothing reaches a prompt sink behind
them after the horizon of the call, and a reset brings no write and no flush.
-/

namespace TrafficPolicy.Stream

open Call

variable {σ : Type} {watch : Watch σ} {inner : Sink σ}

structure Punctual (watch : Watch σ) (sink : Sink σ) : Prop where
  write : ∀ data, Timely watch (sink.write data)
  flush : Timely watch sink.flush
  reset : Timely watch sink.reset
  idle : Idle watch sink.reset

/-! ## The timed sink -/

namespace Sink

def timedWatch (σ : Type) : Watch (List Arrival × σ) := ⟨fun _ => True, Prod.fst⟩

theorem noting_run (push : Push) (call : Call σ Unit) (horizon : Option Nat) (now : Nat) (s : List Arrival × σ) :
    (noting push call).run horizon now s =
      (Call.inner call).run horizon now (s.1 ++ [⟨now, push⟩], s.2) := rfl

private theorem timely_noting {push : Push} {call : Call σ Unit}
    (h : ∀ horizon now s, ∃ next, call.run horizon now s = ⟨.ok (), now, next⟩) :
    Timely (timedWatch σ) (noting push call) := by
  intro last now s _
  obtain ⟨next, hrun⟩ := h (some last) now s.2
  rw [noting_run]
  simp only [Call.inner, hrun]
  exact ⟨trivial, Nat.le_max_left _ _, Watch.adds_one rfl (Nat.le_max_left _ _)⟩

theorem Prompt.punctual_timed (h : inner.Prompt) : Punctual (timedWatch σ) inner.timed where
  write data := timely_noting (h.write data)
  flush := timely_noting h.flush
  reset := by
    intro last now s _
    obtain ⟨next, hrun⟩ := h.reset (some last) now s.2
    simp only [timed, Call.inner, hrun]
    exact ⟨trivial, Nat.le_max_left _ _, Watch.adds_nothing rfl⟩
  idle := fun _ _ _ hs => ⟨hs, rfl⟩

end Sink

/-! ## Each stage -/

namespace Pause

variable {P : Pause → Prop}

private theorem timely_settle (hsettled : ∀ p, P p → P { p with wait := none }) :
    Timely (watch.behind P) settle := by
  unfold settle
  refine timely_own_bind fun pause hpause => ?_
  split
  · split
    · exact (timely_setOwn (hsettled pause hpause)).bind fun _ => timely_sleep _
    · exact timely_pure ()
  · exact timely_pure ()

theorem punctual_sink (h : Punctual watch inner) (hsettled : ∀ p, P p → P { p with wait := none })
    (hbegun : ∀ p, P p → P { p with inBody := true }) : Punctual (watch.behind P) (sink inner) where
  write data := (timely_settle hsettled).bind fun _ => timely_inner (h.write data)
  flush := by
    refine (timely_settle hsettled).bind fun _ => (timely_inner h.flush).bind fun _ => ?_
    exact timely_own_bind fun pause hpause => timely_setOwn (hbegun pause hpause)
  reset := timely_inner h.reset
  idle := idle_inner h.idle

end Pause

namespace Deadline

variable {P : Deadline → Prop}

theorem idle_expire {α : Type} (h : Idle watch inner.reset) (hexpired : ∀ d, P d → P { d with expired := true }) :
    Idle (watch.behind P) (expire inner : Call (Deadline × σ) α) := by
  unfold expire
  refine idle_own_bind fun d hd horizon => ?_
  split
  · refine follows_bind (idle_setOwn (hexpired d hd) horizon) fun _ => ?_
    exact follows_bind (follows_attempt (idle_inner h horizon)) fun _ => follows_fail _
  · exact follows_fail _

private theorem timely_expire {α : Type} (h : Timely watch inner.reset)
    (hexpired : ∀ d, P d → P { d with expired := true }) :
    Timely (watch.behind P) (expire inner : Call (Deadline × σ) α) := by
  unfold expire
  refine timely_own_bind fun d hd last => ?_
  split
  · refine follows_bind (timely_setOwn (hexpired d hd) last) fun _ => ?_
    exact follows_bind (follows_attempt (timely_inner h last)) fun _ => follows_fail _
  · exact follows_fail _

private theorem timely_writeSlice (h : Punctual watch inner) (hexpired : ∀ d, P d → P { d with expired := true })
    (slice : Bytes) : Timely (watch.behind P) (writeSlice inner slice) := by
  unfold writeSlice
  refine timely_own_bind fun d _ => timely_now.bind fun now => ?_
  split
  · exact timely_expire h.reset hexpired
  · exact timely_within (timely_inner (h.write slice)) (timely_expire h.reset hexpired)

theorem punctual_sink (h : Punctual watch inner) (hexpired : ∀ d, P d → P { d with expired := true }) :
    Punctual (watch.behind P) (sink inner) where
  write data := by
    simp only [sink]
    split
    · exact fun last => follows_each _ fun slice _ => timely_writeSlice h hexpired slice last
    · exact timely_writeSlice h hexpired data
  flush := by
    refine timely_own_bind fun d _ => timely_now.bind fun now => ?_
    split
    · exact timely_expire h.reset hexpired
    · exact timely_inner h.flush
  reset := timely_own_bind fun d hd => (timely_setOwn (hexpired d hd)).bind fun _ => timely_inner h.reset
  idle := idle_own_bind fun d hd horizon =>
    follows_bind (idle_setOwn (hexpired d hd) horizon) fun _ => idle_inner h.idle horizon

end Deadline

namespace Framer

variable {P : Framer → Prop}

private theorem timely_send (h : Punctual watch inner) (hall : ∀ f, P f) (piece : Piece) :
    Timely (watch.behind P) (send inner piece) := by
  refine (timely_setOwn (hall piece.before)).bind fun _ => ?_
  refine (timely_inner (h.write piece.bytes)).bind fun _ => (timely_inner h.flush).bind fun _ => ?_
  exact timely_setOwn (hall piece.after)

theorem punctual_sink (h : Punctual watch inner) (hmoved : ∀ f f', P f → P f') :
    Punctual (watch.behind P) (sink inner) where
  write data := timely_choose fun framer hframer last =>
    follows_each (framer.pieces data) fun piece _ => timely_send h (fun f => hmoved framer f hframer) piece last
  flush := timely_inner h.flush
  reset := timely_inner h.reset
  idle := idle_inner h.idle

end Framer

namespace Meter

variable {P : Meter → Prop}

private theorem timely_round (h : Punctual watch inner) (hmoved : ∀ m m', P m → P m') (rest : Bytes) :
    Timely (watch.behind P) (round inner rest) := by
  unfold round
  split
  · exact timely_pure _
  · refine timely_now.bind fun now => timely_own_bind fun meter hmeter => ?_
    refine (timely_setOwn (hmoved meter _ hmeter)).bind fun _ => ?_
    dsimp only
    split
    · exact (timely_sleep pause).bind fun _ => timely_pure _
    · refine (timely_inner (h.write _)).bind fun _ => (timely_inner h.flush).bind fun _ => ?_
      exact (timely_setOwn (hmoved meter _ hmeter)).bind fun _ => timely_pure _

theorem punctual_sink (h : Punctual watch inner) (hmoved : ∀ m m', P m → P m') :
    Punctual (watch.behind P) (sink inner) where
  write data := by
    simp only [sink]
    split
    · refine timely_own_bind fun meter _ last => follows_bind follows_horizon fun horizon => ?_
      exact follows_repeatFor fun rest => timely_round h hmoved rest last
    · refine timely_now.bind fun now => timely_own_bind fun meter _ => ?_
      exact (timely_inner (h.write data)).bind fun _ => timely_sleepUntil _
  flush := timely_inner h.flush
  reset := timely_inner h.reset
  idle := idle_inner h.idle

end Meter

/-! ## Stages one behind the other -/

namespace Stage

/-- A property of stages that no call takes away. -/
structure Lasting (P : Stage → Prop) : Prop where
  settled : ∀ p, P (.pause p) → P (.pause { p with wait := none })
  begun : ∀ p, P (.pause p) → P (.pause { p with inBody := true })
  expired : ∀ d, P (.deadline d) → P (.deadline { d with expired := true })
  framer : ∀ f f', P (.framer f) → P (.framer f')
  meter : ∀ m m', P (.meter m) → P (.meter m')

variable {P : Stage → Prop}

/-- What a call does behind a stage it does behind each kind of stage. -/
private theorem timely_use {action : {τ : Type} → Sink τ → Call τ Unit} (h : Punctual watch inner)
    (hlasting : Lasting P)
    (haction : ∀ {τ : Type} {watch : Watch τ} {sink : Sink τ}, Punctual watch sink → Timely watch (action sink))
    (hdiscard : Timely watch (action inner.discarding)) : Timely (watch.behind P) (use inner action) := by
  intro last now ⟨stage, s⟩ ⟨hstage, hs⟩
  cases stage with
  | discard =>
    obtain ⟨hfits, hrest⟩ := hdiscard last now s hs
    exact ⟨⟨hstage, hfits⟩, hrest⟩
  | pause p =>
    have hsink := Pause.punctual_sink (P := fun p => P (.pause p)) h hlasting.settled hlasting.begun
    exact haction hsink last now (p, s) ⟨hstage, hs⟩
  | deadline d =>
    have hsink := Deadline.punctual_sink (P := fun d => P (.deadline d)) h hlasting.expired
    exact haction hsink last now (d, s) ⟨hstage, hs⟩
  | framer f =>
    have hsink := Framer.punctual_sink (P := fun f => P (.framer f)) h hlasting.framer
    exact haction hsink last now (f, s) ⟨hstage, hs⟩
  | meter m =>
    have hsink := Meter.punctual_sink (P := fun m => P (.meter m)) h hlasting.meter
    exact haction hsink last now (m, s) ⟨hstage, hs⟩

theorem punctual_sink (h : Punctual watch inner) (hlasting : Lasting P) :
    Punctual (watch.behind P) (sink inner) where
  write data := timely_use h hlasting (fun hsink => hsink.write data) (timely_pure ())
  flush := timely_use h hlasting (fun hsink => hsink.flush) (timely_pure ())
  reset := timely_use h hlasting (fun hsink => hsink.reset) h.reset
  idle := by
    intro horizon now ⟨stage, s⟩ ⟨hstage, hs⟩
    cases stage with
    | deadline d =>
      have hsink := Deadline.punctual_sink (P := fun d => P (.deadline d)) h hlasting.expired
      exact hsink.idle horizon now (d, s) ⟨hstage, hs⟩
    | _ =>
      obtain ⟨hfits, hseen⟩ := h.idle horizon now s hs
      exact ⟨⟨hstage, hfits⟩, hseen⟩

end Stage

namespace Watch

def behindAll (watch : Watch σ) (P : Stage → Prop) : (n : Nat) → Watch (Nest σ n)
  | 0 => watch
  | n + 1 => (watch.behindAll P n).behind P

theorem seen_behindAll (watch : Watch σ) (P : Stage → Prop) (n : Nat) (s : Nest σ n) :
    (watch.behindAll P n).seen s = watch.seen (Nest.base n s) := by
  induction n with
  | zero => rfl
  | succ n ih => exact ih s.2

theorem fits_ofStages {P : Stage → Prop} {stages : List Stage} (hstages : ∀ stage ∈ stages, P stage) {s : σ}
    (hs : watch.fits s) : (watch.behindAll P stages.length).fits (Nest.ofStages stages s) := by
  induction stages with
  | nil => exact hs
  | cons stage stages ih =>
    exact ⟨hstages stage List.mem_cons_self, ih fun other hother => hstages other (List.mem_cons_of_mem _ hother)⟩

end Watch

theorem punctual_behind {P : Stage → Prop} (h : Punctual watch inner) (hlasting : Stage.Lasting P) (n : Nat) :
    Punctual (watch.behindAll P n) (inner.behind n) := by
  induction n with
  | zero => exact h
  | succ n ih => exact Stage.punctual_sink ih hlasting

end TrafficPolicy.Stream
