import TrafficPolicy.Proofs.Stream.Limit
import TrafficPolicy.Proofs.Stream.Resets

/-!
# Two limits, one behind the other

A limit that another one resets counts as run out. It is not so the other way round: a limit does not hear of it when
one behind it runs out, and breaks the connection off again when its own time has come. So the order of the two limits
matters. If the outer one runs out in an earlier tick, it breaks off whatever the inner one waits for, and the inner one
is never reached again. If not, a write that hangs or a flush that comes too late is enough for two resets.
-/

namespace TrafficPolicy

namespace Stream

open Call

variable {σ : Type} {inner : Sink σ}

/-! ## Calls that can be broken off -/

/-- A call that is to be broken off at some time has ended by then. -/
structure Sink.Yields (sink : Sink σ) : Prop where
  write : ∀ data last now s, ((sink.write data).run (some last) now s).time ≤ max now last
  flush : ∀ last now s, (sink.flush.run (some last) now s).time ≤ max now last
  reset : ∀ last now s, (sink.reset.run (some last) now s).time ≤ max now last

def Watch.blind (σ : Type) : Watch σ := ⟨fun _ => True, fun _ => []⟩

theorem Sink.Yields.punctual (h : inner.Yields) : Punctual (Watch.blind σ) inner where
  write data last now s _ := ⟨trivial, h.write data last now s, Watch.adds_nothing rfl⟩
  flush last now s _ := ⟨trivial, h.flush last now s, Watch.adds_nothing rfl⟩
  reset last now s _ := ⟨trivial, h.reset last now s, Watch.adds_nothing rfl⟩
  idle _ _ _ _ := ⟨trivial, rfl⟩

theorem Watch.fits_blind (n : Nat) (s : Nest σ n) : ((blind σ).behindAll (fun _ => True) n).fits s := by
  induction n with
  | zero => trivial
  | succ n ih => exact ⟨trivial, ih s.2⟩

/-- Stages do not keep a call longer than the sink behind them. -/
theorem Sink.Yields.behind (h : inner.Yields) (n : Nat) : (inner.behind n).Yields := by
  have hpunctual : Punctual ((Watch.blind σ).behindAll (fun _ => True) n) (inner.behind n) :=
    punctual_behind h.punctual ⟨fun _ h => h, fun _ h => h, fun _ h => h, fun _ _ h => h, fun _ _ h => h⟩ n
  exact ⟨fun data last now s => (hpunctual.write data last now s (Watch.fits_blind n s)).2.1,
    fun last now s => (hpunctual.flush last now s (Watch.fits_blind n s)).2.1,
    fun last now s => (hpunctual.reset last now s (Watch.fits_blind n s)).2.1⟩

theorem Sink.Yields.logged (h : inner.Yields) : inner.logged.Yields where
  write data last now s := h.write data last now s.2
  flush last now s := h.flush last now s.2
  reset last now s := h.reset last now s.2

theorem Sink.Prompt.yields (h : inner.Prompt) : inner.Yields where
  write data last now s := by
    obtain ⟨next, hrun⟩ := h.write data (some last) now s
    rw [hrun]
    exact Nat.le_max_left _ _
  flush last now s := by
    obtain ⟨next, hrun⟩ := h.flush (some last) now s
    rw [hrun]
    exact Nat.le_max_left _ _
  reset last now s := by
    obtain ⟨next, hrun⟩ := h.reset (some last) now s
    rw [hrun]
    exact Nat.le_max_left _ _

/-! ## Resets go through all stages -/

theorem Sink.reset_behind (inner : Sink σ) (n : Nat) (horizon : Option Nat) (now : Nat) (s : Nest σ n) :
    ((inner.behind n).reset.run horizon now s).verdict = (inner.reset.run horizon now (Nest.base n s)).verdict ∧
      ((inner.behind n).reset.run horizon now s).time = (inner.reset.run horizon now (Nest.base n s)).time ∧
      Nest.base n ((inner.behind n).reset.run horizon now s).state =
        (inner.reset.run horizon now (Nest.base n s)).state := by
  induction n with
  | zero => exact ⟨rfl, rfl, rfl⟩
  | succ n ih =>
    obtain ⟨stage, s⟩ := s
    cases stage <;> exact ih s

theorem Nest.resets_reset (inner : Sink σ) (n : Nat) (horizon : Option Nat) (now : Nat)
    (s : Nest (List Action × σ) n) :
    resets n ((inner.logged.behind n).reset.run horizon now s).state = resets n s + 1 := by
  have hlog : actions n ((inner.logged.behind n).reset.run horizon now s).state = actions n s ++ [.reset] :=
    congrArg Prod.fst (inner.logged.reset_behind n horizon now s).2.2
  rw [resets, hlog]
  simp [resets]

/-! ## The outer limit runs out first -/

namespace Deadline

variable {limit first bodyLimit last : Nat} {I : σ → Prop}

/-- The inner limit has not run out, and something holds of the sink behind it. -/
def Sleeps (bodyLimit : Nat) (I : σ → Prop) (s : Stage × σ) : Prop :=
  s.1 = .deadline ⟨bodyLimit, false⟩ ∧ I s.2

def sleeping (bodyLimit last : Nat) (I : σ → Prop) : Course (Deadline × σ) where
  rel now s time t := now ≤ last → s.1 = ⟨bodyLimit, false⟩ ∧ I s.2 → time ≤ last ∧ t.1 = ⟨bodyLimit, false⟩ ∧ I t.2
  refl _ _ hnow hs := ⟨hnow, hs⟩
  trans h h' hnow hs := by
    obtain ⟨hmid, hm⟩ := h hnow hs
    exact h' hmid hm

/-- A call that ends before its deadline is not broken off there. -/
theorem within_run_of_lt {α : Type} {deadline now : Nat} {call late : Call σ α} {horizon : Option Nat} {s : σ}
    (h : (call.run (some (earlier (Clock.roundUp deadline) horizon)) now s).time < Clock.roundUp deadline) :
    (within deadline call late).run horizon now s =
      call.run (some (earlier (Clock.roundUp deadline) horizon)) now s := by
  simp only [within]
  revert h
  rcases call.run (some (earlier (Clock.roundUp deadline) horizon)) now s with ⟨_ | _ | _ | _, time, t⟩ <;> intro h
  · rfl
  · rfl
  · exact if_neg (Nat.not_le.mpr h)
  · rfl

theorem isOver_eq_false {now : Nat} (h : now < limit) : isOver ⟨limit, false⟩ now = false := by
  simpa [isOver] using h

private theorem follows_writeSlice_sleeping (hyields : inner.Yields) (hobeys : inner.Obeys (.holding 0 I))
    (hlast : last < bodyLimit) {horizon : Nat} (hhorizon : horizon ≤ last) (slice : Bytes) :
    Follows (sleeping bodyLimit last I) (some horizon) (writeSlice inner slice) := by
  rintro now ⟨_, s⟩ hnow ⟨rfl, hs⟩
  have hround := Clock.le_roundUp bodyLimit
  have htime := hyields.write slice (earlier (Clock.roundUp bodyLimit) (some horizon)) now s
  have hearlier : earlier (Clock.roundUp bodyLimit) (some horizon) ≤ horizon := Nat.min_le_right _ _
  rw [writeSlice_run, isOver_eq_false (by omega), if_neg Bool.false_ne_true,
    within_run_of_lt (by show _ < _; simp only [Call.inner]; omega)]
  refine ⟨?_, rfl, (hobeys.write slice _ now s).2 (Nat.zero_le now) hs⟩
  simp only [Call.inner]
  omega

private theorem sleeps_write (hyields : inner.Yields) (hobeys : inner.Obeys (.holding 0 I)) (hlast : last < bodyLimit)
    {horizon now : Nat} (hhorizon : horizon ≤ last) (hnow : now ≤ last) {s : Stage × σ} (hs : Sleeps bodyLimit I s)
    (data : Bytes) : Sleeps bodyLimit I (((Stage.sink inner).write data).run (some horizon) now s).state := by
  obtain ⟨_, s⟩ := s
  obtain ⟨rfl, hs⟩ := hs
  have hfollows : Follows (sleeping bodyLimit last I) (some horizon) ((sink inner).write data) := by
    simp only [sink]
    split
    · exact follows_each _ fun slice _ => follows_writeSlice_sleeping hyields hobeys hlast hhorizon slice
    · exact follows_writeSlice_sleeping hyields hobeys hlast hhorizon data
  obtain ⟨-, htime, hI⟩ := hfollows now (⟨bodyLimit, false⟩, s) hnow ⟨rfl, hs⟩
  exact ⟨congrArg Stage.deadline htime, hI⟩

private theorem sleeps_flush (hobeys : inner.Obeys (.holding 0 I)) {horizon : Option Nat} {now : Nat}
    (hnow : now < bodyLimit) {s : Stage × σ} (hs : Sleeps bodyLimit I s) :
    Sleeps bodyLimit I ((Stage.sink inner).flush.run horizon now s).state := by
  obtain ⟨_, s⟩ := s
  obtain ⟨rfl, hs⟩ := hs
  rw [Stage.flush_run_deadline, isOver_eq_false hnow, if_neg Bool.false_ne_true]
  exact ⟨rfl, (hobeys.flush horizon now s).2 (Nat.zero_le now) hs⟩

/-- The outer limit never lets anything reach the inner one when that has run out. -/
theorem guards_sleeping {spent : Stage × σ → Prop} (hyields : inner.Yields) (hobeys : inner.Obeys (.holding 0 I))
    (hreset : ∀ horizon now s, Sleeps bodyLimit I s → spent ((Stage.sink inner).reset.run horizon now s).state)
    (h : limit ≤ first ∨ Clock.roundUp limit < Clock.roundUp bodyLimit) :
    Guards first limit (Sleeps bodyLimit I) spent (Stage.sink inner) := by
  have hround := Clock.le_roundUp limit
  -- Nothing is passed on if the outer limit has run out from the beginning.
  have hlast : ∀ now, first ≤ now → now < limit → Clock.roundUp limit < bodyLimit := by
    intro now hfirst hnow
    have hlt := h.resolve_left (by omega)
    rwa [← Nat.not_le, Clock.roundUp_le_roundUp_iff, Nat.not_le] at hlt
  refine ⟨fun data horizon now s hfirst hnow hhorizon hs => ?_, fun horizon now s hfirst hnow hs => ?_, hreset⟩
  · exact sleeps_write hyields hobeys (hlast now hfirst hnow) hhorizon (by omega) hs data
  · have := hlast now hfirst hnow
    exact sleeps_flush hobeys (by omega) hs

end Deadline

theorem Stage.obeys_guarded {first limit : Nat} {quiet spent : σ → Prop}
    (h : Deadline.Guards first limit quiet spent inner) :
    (sink inner).Obeys (.holding first fun s =>
      ∃ d, s.1 = .deadline d ∧ Deadline.Guarded limit quiet spent (d, s.2)) where
  write data horizon now s := by
    refine ⟨((sink inner).write data).now_le horizon now s, fun hnow ⟨d, hd, hs⟩ => ?_⟩
    obtain ⟨_, s⟩ := s
    obtain rfl := hd
    exact ⟨_, rfl, ((Deadline.obeys_guarded h).write data horizon now (d, s)).2 hnow hs⟩
  flush horizon now s := by
    refine ⟨(sink inner).flush.now_le horizon now s, fun hnow ⟨d, hd, hs⟩ => ?_⟩
    obtain ⟨_, s⟩ := s
    obtain rfl := hd
    exact ⟨_, rfl, ((Deadline.obeys_guarded h).flush horizon now (d, s)).2 hnow hs⟩
  reset _ _ _ := trivial

/-- A sink behind two limits is reset once at most if the outer one runs out in an earlier tick, or at once. -/
theorem resets_session_le_one (hyields : inner.Yields) {limit bodyLimit now : Nat}
    (h : limit ≤ now ∨ Clock.roundUp limit < Clock.roundUp bodyLimit) {stages : List Stage}
    (hstages : stages.countP Stage.mayReset = 0) (s : σ) (pushes : List (Nat × Push)) :
    Nest.resets _ (session (.deadline ⟨limit, false⟩ :: .deadline ⟨bodyLimit, false⟩ :: stages) inner now s
      pushes).state ≤ 1 := by
  -- Up to its own end the outer limit keeps the inner one asleep, so that its reset is the first, and shuts both.
  let n := stages.length
  let idle : Nest (List Action × σ) n → Prop := fun s => Nest.charge n s ≤ 0
  let spent : Nest (List Action × σ) (n + 1) → Prop := fun s => Nest.resets (n + 1) s ≤ 1
  have hidle : ∀ s, Deadline.Sleeps bodyLimit idle s → Nest.resets (n + 1) s = 0 := fun s hs =>
    Nat.le_zero.mp (Nat.le_trans (Nest.resets_le_charge n s.2) hs.2)
  have hreset : ∀ horizon now s, Deadline.Sleeps bodyLimit idle s →
      spent ((inner.logged.behind (n + 1)).reset.run horizon now s).state := by
    intro horizon now s hs
    exact Nat.le_of_eq ((Nest.resets_reset inner (n + 1) horizon now s).trans (congrArg (· + 1) (hidle s hs)))
  have hguards := Deadline.guards_sleeping (hyields.logged.behind n) ((inner.spends_behind n).keeps 0) hreset h
  obtain ⟨d, hd, -, hs⟩ := (Stage.obeys_guarded hguards).pushOn_holding (Nat.le_refl now)
    (s := Nest.fresh (.deadline ⟨limit, false⟩ :: .deadline ⟨bodyLimit, false⟩ :: stages) s)
    ⟨_, rfl, rfl, rfl, Nat.le_of_eq ((Nest.charge_fresh stages s).trans hstages)⟩ pushes
  split at hs
  · exact hs
  · exact Nat.le_trans (Nat.le_of_eq (hidle _ hs)) (Nat.zero_le 1)

/-! ## The inner limit runs out first -/

def Call.forever {α : Type} : Call σ α where
  run horizon now s :=
    match horizon with
    | none => ⟨.endless, now, s⟩
    | some last => ⟨.cut, max now last, s⟩
  now_le horizon now _ := by
    cases horizon with
    | none => exact Nat.le_refl _
    | some last => exact Nat.le_max_left _ _
  horizon_le horizon now _ h := by
    cases horizon with
    | none => cases h
    | some last => exact ⟨last, rfl, Nat.le_max_right _ _⟩

/-- A sink whose writes hang. It takes everything else at once. -/
def Sink.hanging : Sink Unit where
  divisible := false
  write _ := forever
  flush := pure ()
  reset := pure ()

theorem Sink.yields_hanging : hanging.Yields where
  write _ _ _ _ := Nat.le_refl _
  flush _ _ _ := Nat.le_max_left _ _
  reset _ _ _ := Nat.le_max_left _ _

theorem Framer.exists_first_piece (framer : Framer) {data : Bytes} (hdata : data ≠ []) :
    ∃ piece rest, framer.pieces data = piece :: rest ∧ piece.bytes ≠ [] := by
  have hlength := List.length_pos_iff.mpr hdata
  cases framer with
  | blocks count written =>
    by_cases hcount : 0 < count
    · have hnext := lt_boundary (show written < written + data.length by omega) hcount
      refine ⟨_, _, by rw [pieces, dif_pos hcount, blockPieces, dif_neg hdata], ?_⟩
      simp only [ne_eq, List.take_eq_nil_iff, hdata, or_false]
      omega
    · exact ⟨_, _, by rw [pieces, dif_neg hcount], hdata⟩
  | sizes sizes =>
    rw [pieces, sizePieces, dif_neg hdata]
    dsimp only
    split
    · exact ⟨_, _, rfl, hdata⟩
    · rename_i size hsize
      have hpos := sizes.next_pos hsize
      refine ⟨_, _, rfl, ?_⟩
      simp only [ne_eq, List.take_eq_nil_iff, hdata, or_false]
      omega

section Hanging

variable {n : Nat} {horizon : Option Nat} {now time : Nat} {s t : σ} {data : Bytes}

theorem Framer.write_run_of_cut {framer : Framer} {piece : Piece} {rest : List Piece}
    (hpieces : framer.pieces data = piece :: rest) (h : (inner.write piece.bytes).run horizon now s = ⟨.cut, time, t⟩) :
    ((sink inner).write data).run horizon now (framer, s) = ⟨.cut, time, (piece.before, t)⟩ := by
  have hsend : (send inner piece).run horizon now (framer, s) = ⟨.cut, time, (piece.before, t)⟩ := by
    simp only [send, bind_run, setOwn, Call.modify, finish, followRun, Call.inner, h]
  show eachRun (send inner) horizon (framer.pieces data) now (framer, s) = _
  rw [hpieces, eachRun, hsend]

theorem Meter.write_run_of_cut (meter : Meter) (hdivisible : inner.divisible = false)
    (h : (inner.write data).run horizon now s = ⟨.cut, time, t⟩) :
    ((sink inner).write data).run horizon now (meter, s) = ⟨.cut, time, (meter, t)⟩ := by
  simp only [sink, hdivisible, Bool.false_eq_true, if_false, writeWhole, bind_run, Call.now, own, Call.state, followRun,
    Call.inner, h, pure, give, finish, id_eq]

/-- Whatever is written through open stages hangs. -/
theorem exists_write_hanging (s : Nest (List Action × Unit) n) (hopen : ∀ stage ∈ Nest.stages n s, stage.IsOpen)
    (hdata : data ≠ []) (last now : Nat) :
    ∃ t, ((Sink.hanging.logged.behind n).write data).run (some last) now s = ⟨.cut, max now last, t⟩ := by
  induction n generalizing data with
  | zero => exact ⟨_, rfl⟩
  | succ n ih =>
    obtain ⟨stage, s⟩ := s
    have hrest : ∀ other ∈ Nest.stages n s, other.IsOpen := fun other hother =>
      hopen other (List.mem_cons_of_mem _ hother)
    cases stage with
    | framer framer =>
      obtain ⟨piece, rest, hpieces, hbytes⟩ := framer.exists_first_piece hdata
      obtain ⟨t, hrun⟩ := ih s hrest hbytes
      have hwrite := Framer.write_run_of_cut hpieces hrun
      refine ⟨(.framer piece.before, t), ?_⟩
      show (keeping Stage.framer framer ((Framer.sink _).write data)).run (some last) now (Stage.framer framer, s) = _
      simp only [keeping, hwrite]
      rfl
    | meter meter =>
      obtain ⟨t, hrun⟩ := ih s hrest hdata
      have hwrite := Meter.write_run_of_cut meter (Sink.divisible_behind _ n) hrun
      refine ⟨(.meter meter, t), ?_⟩
      show (keeping Stage.meter meter ((Meter.sink _).write data)).run (some last) now (Stage.meter meter, s) = _
      simp only [keeping, hwrite]
      rfl
    | _ => exact (hopen _ List.mem_cons_self).elim

theorem exists_reset_hanging (n : Nat) (horizon : Option Nat) (now : Nat) (s : Nest (List Action × Unit) n) :
    ∃ t, (Sink.hanging.logged.behind n).reset.run horizon now s = ⟨.ok (), now, t⟩ ∧
      Nest.resets n t = Nest.resets n s + 1 := by
  obtain ⟨hverdict, htime, -⟩ := Sink.hanging.logged.reset_behind n horizon now s
  have hresets := Nest.resets_reset Sink.hanging n horizon now s
  revert hverdict htime hresets
  rcases (Sink.hanging.logged.behind n).reset.run horizon now s with ⟨verdict, time, t⟩
  intro hverdict htime hresets
  obtain rfl : verdict = .ok () := hverdict
  obtain rfl : time = now := htime
  exact ⟨t, rfl, hresets⟩

theorem Deadline.expire_run_of_ok {α : Type} {limit : Nat} (h : inner.reset.run horizon now s = ⟨.ok (), time, t⟩) :
    (expire inner : Call (Deadline × σ) α).run horizon now (⟨limit, false⟩, s) =
      ⟨.failed .timedOut, time, (⟨limit, true⟩, t)⟩ := by
  simp only [expire, bind_run, own, Call.state, followRun, setOwn, Call.modify, finish, attempt, Call.inner, pure, give,
    id_eq, Bool.not_false, if_true, h, fail]

/-- A limit that has not come yet passes on that a write has failed, and does not take it for the end. -/
theorem Stage.write_run_of_failed {limit : Nat} {fault : Fault} (hdivisible : inner.divisible = false)
    (hnow : now < limit)
    (h : (inner.write data).run (some (earlier (Clock.roundUp limit) horizon)) now s = ⟨.failed fault, time, t⟩) :
    ((sink inner).write data).run horizon now (.deadline ⟨limit, false⟩, s) =
      ⟨.failed fault, time, (.deadline ⟨limit, false⟩, t)⟩ := by
  have hwrite : ((Deadline.sink inner).write data).run horizon now (⟨limit, false⟩, s) =
      ⟨.failed fault, time, (⟨limit, false⟩, t)⟩ := by
    rw [Deadline.write_run hdivisible, Deadline.isOver_eq_false hnow, if_neg Bool.false_ne_true]
    simp only [within, Call.inner, h, withinRun]
  show (Call.keeping Stage.deadline ⟨limit, false⟩ ((Deadline.sink inner).write data)).run horizon now _ = _
  simp only [Call.keeping, hwrite]

/-- A flush that comes too late breaks the connection off. -/
theorem Stage.flush_run_of_over {limit : Nat} (hnow : limit ≤ now)
    (h : inner.reset.run horizon now s = ⟨.ok (), time, t⟩) :
    (sink inner).flush.run horizon now (.deadline ⟨limit, false⟩, s) =
      ⟨.failed .timedOut, time, (.deadline ⟨limit, true⟩, t)⟩ := by
  have hover : Deadline.isOver ⟨limit, false⟩ now = true := by simp [Deadline.isOver, hnow]
  rw [flush_run_deadline, hover, if_pos rfl]
  simp only [Call.keeping, Deadline.expire_run_of_ok h]

/-- A write that hangs runs into the inner limit, of which the outer one does not hear. -/
theorem exists_write_inner_limit {limit bodyLimit : Nat} (hround : Clock.roundUp bodyLimit ≤ Clock.roundUp limit)
    (s : Nest (List Action × Unit) n) (hopen : ∀ stage ∈ Nest.stages n s, stage.IsOpen) (hdata : data ≠ [])
    (now : Nat) :
    ∃ time t, ((Deadline.sink (Sink.hanging.logged.behind n)).write data).run (some (Clock.roundUp limit)) now
        (⟨bodyLimit, false⟩, s) = ⟨.failed .timedOut, time, (⟨bodyLimit, true⟩, t)⟩ ∧ 1 ≤ Nest.resets n t := by
  rw [Deadline.write_run (Sink.divisible_behind _ n)]
  split
  · obtain ⟨t, hreset, hresets⟩ := exists_reset_hanging n (some (Clock.roundUp limit)) now s
    exact ⟨now, t, Deadline.expire_run_of_ok hreset, by omega⟩
  · obtain ⟨t, hrun⟩ := exists_write_hanging s hopen hdata (Clock.roundUp bodyLimit) now
    obtain ⟨u, hreset, hresets⟩ :=
      exists_reset_hanging n (some (Clock.roundUp limit)) (max now (Clock.roundUp bodyLimit)) t
    have hearlier : earlier (Clock.roundUp bodyLimit) (some (Clock.roundUp limit)) = Clock.roundUp bodyLimit :=
      Nat.min_eq_left hround
    refine ⟨max now (Clock.roundUp bodyLimit), u, ?_, by omega⟩
    simp only [within, hearlier, Call.inner, hrun, withinRun, if_pos (Nat.le_max_right now (Clock.roundUp bodyLimit))]
    exact Deadline.expire_run_of_ok hreset

theorem Sink.pushOn_cons_of_failed {gap : Nat} {push : Push} {fault : Fault}
    (h : (inner.push push).run none (now + gap) s = ⟨.failed fault, time, t⟩) (pushes : List (Nat × Push)) :
    inner.pushOn ((gap, push) :: pushes) now s = inner.pushOn pushes time t := by
  simp only [pushOn, h]

end Hanging

/-- A sink behind two limits is reset twice if the inner one runs out in the same tick or in an earlier one: when a
write hangs, and when the outer limit has run out too. -/
theorem two_le_resets_session {limit bodyLimit now : Nat} (hnow : now < limit)
    (hround : Clock.roundUp bodyLimit ≤ Clock.roundUp limit) {stages : List Stage}
    (hopen : ∀ stage ∈ stages, stage.IsOpen) :
    2 ≤ Nest.resets _ (session (.deadline ⟨limit, false⟩ :: .deadline ⟨bodyLimit, false⟩ :: stages) Sink.hanging now ()
      [(0, .write [0]), (limit, .flush)]).state := by
  let n := stages.length
  let start : Nest (List Action × Unit) n := Nest.fresh stages ()
  have hstart : ∀ stage ∈ Nest.stages n start, stage.IsOpen := by
    rw [show Nest.stages n start = stages from Nest.stages_ofStages stages _]
    exact hopen
  obtain ⟨time, t, hinner, hfirst⟩ := exists_write_inner_limit hround start hstart (List.cons_ne_nil 0 []) now
  let fresh : Nest (List Action × Unit) (n + 1) := (.deadline ⟨bodyLimit, false⟩, start)
  let mid : Nest (List Action × Unit) (n + 1) := (.deadline ⟨bodyLimit, true⟩, t)
  obtain ⟨u, hreset, hsecond⟩ := exists_reset_hanging (n + 1) none (time + limit) mid
  -- The write fails in the inner limit, which the outer one takes for a failure of the sink.
  have hpass : ((Sink.hanging.logged.behind (n + 1)).write [0]).run (some (Clock.roundUp limit)) now fresh =
      ⟨.failed .timedOut, time, mid⟩ := by
    show (Call.keeping Stage.deadline ⟨bodyLimit, false⟩ _).run _ now _ = _
    simp only [Call.keeping, fresh, hinner]
    rfl
  have hwrite : ((Sink.hanging.logged.behind (n + 2)).push (.write [0])).run none (now + 0)
      (.deadline ⟨limit, false⟩, fresh) = ⟨.failed .timedOut, time, (.deadline ⟨limit, false⟩, mid)⟩ :=
    Stage.write_run_of_failed (Sink.divisible_behind _ (n + 1)) hnow hpass
  -- So the outer limit has not run out yet when the flush comes too late for it.
  have hflush : ((Sink.hanging.logged.behind (n + 2)).push .flush).run none (time + limit)
      (.deadline ⟨limit, false⟩, mid) = ⟨.failed .timedOut, time + limit, (.deadline ⟨limit, true⟩, u)⟩ :=
    Stage.flush_run_of_over (Nat.le_add_left limit time) hreset
  have hsession : (session (.deadline ⟨limit, false⟩ :: .deadline ⟨bodyLimit, false⟩ :: stages) Sink.hanging now ()
      [(0, .write [0]), (limit, .flush)]).state = (.deadline ⟨limit, true⟩, u) :=
    congrArg Ended.state
      ((Sink.pushOn_cons_of_failed hwrite [(limit, .flush)]).trans (Sink.pushOn_cons_of_failed hflush []))
  have hresets : Nest.resets (n + 1) mid = Nest.resets n t := rfl
  rw [hsession]
  show 2 ≤ Nest.resets (n + 1) u
  omega

/-- A stage that discards keeps resets from a sink too, as long as nobody asks for one. -/
theorem resets_session_discard (stages : List Stage) (inner : Sink σ) (now : Nat) (s : σ)
    (pushes : List (Nat × Push)) :
    Nest.resets _ (session (.discard :: stages) inner now s pushes).state = 0 := by
  have hactions : Nest.actions _ (session (.discard :: stages) inner now s pushes).state = [] := by
    show (Nest.base _ ((Stage.sink (inner.logged.behind stages.length)).pushOn pushes now
      (.discard, Nest.fresh stages s)).state.2).1 = []
    rw [Stage.pushOn_discard]
    exact Nest.actions_fresh stages s
  rw [Nest.resets, hactions, List.count_nil]

theorem countP_mayReset_of_isOpen {stages : List Stage} (h : ∀ stage ∈ stages, stage.IsOpen) :
    stages.countP Stage.mayReset = 0 := by
  refine List.countP_eq_zero.mpr fun stage hstage => ?_
  have hopen := h stage hstage
  cases stage with
  | framer | meter => exact Bool.false_ne_true
  | _ => exact hopen.elim

end Stream

/-! ## Policies -/

open TrafficPolicy.Stream

def DelayPolicy.limit? (d : DelayPolicy) (now : Nat) (factor : Float) : Option Nat :=
  if d.kind = .timeout then some (Deadline.after now (d.sample factor)).time else none

theorem DelayPolicy.stage?_of_limit? {d : DelayPolicy} {now limit : Nat} {factor : Float}
    (h : d.limit? now factor = some limit) : d.stage? now factor = some (.deadline ⟨limit, false⟩) := by
  obtain ⟨hkind, hlimit⟩ := Option.ite_none_right_eq_some.mp h
  obtain rfl := Option.some.inj hlimit
  simp only [stage?, hkind, Deadline.after]

theorem DelayPolicy.countP_mayReset_stage? (d : DelayPolicy) (now : Nat) (factor : Float) :
    (d.stage? now factor).toList.countP Stage.mayReset = (d.limit? now factor).toList.length := by
  cases hkind : d.kind with
  | drop => simp [stage?, limit?, hkind]
  | delay => simp [stage?, limit?, hkind, Stage.mayReset]
  | timeout => simp [stage?, limit?, hkind, Stage.mayReset, Deadline.after]

namespace UrlPolicy

/-- When the timeouts of a policy run out for a response that begins at `now`, that of the response first. -/
def limits (p : UrlPolicy) (now : Nat) (draws : Draws) : List Nat :=
  ((p.get .delay).bind fun d => d.limit? now draws.delay).toList ++
    ((p.get .body).bind fun d => d.limit? now draws.body).toList

/-- How often a sink is reset behind the stages of a policy for a response that begins at `now`. -/
def resets {σ : Type} (p : UrlPolicy) (dropping : Bool) (draws : Draws) (inner : Sink σ) (now : Nat) (s : σ)
    (pushes : List (Nat × Push)) : Nat :=
  Nest.resets _ (session (p.stages dropping now draws) inner now s pushes).state

private theorem countP_mayReset_bind (d? : Option DelayPolicy) (now : Nat) (factor : Float) :
    (d?.bind fun d => d.stage? now factor).toList.countP Stage.mayReset =
      (d?.bind fun d => d.limit? now factor).toList.length := by
  cases d? with
  | none => rfl
  | some d => exact d.countP_mayReset_stage? now factor

theorem stages_eq (p : UrlPolicy) (now : Nat) (draws : Draws) :
    p.stages false now draws = ((p.get .delay).bind fun d => d.stage? now draws.delay).toList ++
      ((p.get .body).bind fun d => d.stage? now draws.body).toList ++ p.openStages now := by
  simp only [stages, openStages, Bool.false_eq_true, if_false, List.nil_append, List.append_assoc]

theorem countP_mayReset_stages (p : UrlPolicy) (now : Nat) (draws : Draws) :
    (p.stages false now draws).countP Stage.mayReset = (p.limits now draws).length := by
  simp only [stages_eq, limits, List.countP_append, List.length_append, countP_mayReset_bind,
    countP_mayReset_of_isOpen (p.isOpen_openStages now), Nat.add_zero]

private theorem bind_stage?_of_limit? {d? : Option DelayPolicy} {now limit : Nat} {factor : Float}
    (h : (d?.bind fun d => d.limit? now factor) = some limit) :
    (d?.bind fun d => d.stage? now factor) = some (.deadline ⟨limit, false⟩) := by
  obtain ⟨d, rfl, hd⟩ := Option.bind_eq_some_iff.mp h
  exact DelayPolicy.stage?_of_limit? hd

theorem stages_of_two_limits {p : UrlPolicy} {now limit bodyLimit : Nat} {draws : Draws}
    (h : p.limits now draws = [limit, bodyLimit]) :
    p.stages false now draws =
      .deadline ⟨limit, false⟩ :: .deadline ⟨bodyLimit, false⟩ :: p.openStages now := by
  have hlimits : ∀ {first second : Option Nat}, first.toList ++ second.toList = [limit, bodyLimit] →
      first = some limit ∧ second = some bodyLimit := by
    intro first second h
    cases first <;> cases second <;> simp_all
  obtain ⟨hdelay, hbody⟩ := hlimits h
  rw [stages_eq, bind_stage?_of_limit? hdelay, bind_stage?_of_limit? hbody]
  rfl

theorem exists_two_limits {p : UrlPolicy} {now : Nat} {draws : Draws} (h : ¬(p.limits now draws).length ≤ 1) :
    ∃ limit bodyLimit, p.limits now draws = [limit, bodyLimit] := by
  revert h
  unfold limits
  rcases (p.get .delay).bind fun d => d.limit? now draws.delay with _ | limit <;>
    rcases (p.get .body).bind fun d => d.limit? now draws.body with _ | bodyLimit <;> intro h
  · exact absurd (Nat.zero_le 1) h
  · exact absurd (Nat.le_refl 1) h
  · exact absurd (Nat.le_refl 1) h
  · exact ⟨limit, bodyLimit, rfl⟩

/-- No sink is reset more often than there are timeouts. Two of them leave it at one reset for every sink exactly if the
one of the response has run out from the beginning, or runs out in an earlier tick than the one of the body. -/
theorem resets_once_iff (p : UrlPolicy) (draws : Draws) (now : Nat) :
    (∀ {σ : Type} (inner : Sink σ) s dropping pushes,
      p.resets dropping draws inner now s pushes ≤ if dropping then 0 else (p.limits now draws).length) ∧
    ((∀ {σ : Type} (inner : Sink σ), inner.Yields → ∀ s dropping pushes,
      p.resets dropping draws inner now s pushes ≤ 1) ↔
        ∀ limit bodyLimit, p.limits now draws = [limit, bodyLimit] →
          limit ≤ now ∨ Clock.roundUp limit < Clock.roundUp bodyLimit) := by
  have hdiscard : ∀ {σ : Type} (inner : Sink σ) s pushes, p.resets true draws inner now s pushes = 0 :=
    fun inner s pushes => resets_session_discard (p.stages false now draws) inner now s pushes
  have hcount : ∀ {σ : Type} (inner : Sink σ) s pushes,
      p.resets false draws inner now s pushes ≤ (p.limits now draws).length := fun inner s pushes =>
    Nat.le_trans (resets_session_le _ inner now s pushes) (Nat.le_of_eq (p.countP_mayReset_stages now draws))
  refine ⟨fun inner s dropping pushes => ?_, fun honce limit bodyLimit hlimits => ?_,
    fun horder σ inner hyields s dropping pushes => ?_⟩
  · cases dropping with
    | true => exact Nat.le_of_eq (hdiscard inner s pushes)
    | false => exact hcount inner s pushes
  · refine Decidable.byContradiction fun hnot => ?_
    rw [not_or, Nat.not_le, Nat.not_lt] at hnot
    have htwice := two_le_resets_session hnot.1 hnot.2 (p.isOpen_openStages now)
    have := honce Sink.hanging Sink.yields_hanging () false [(0, .write [0]), (limit, .flush)]
    rw [resets, stages_of_two_limits hlimits] at this
    omega
  · cases dropping with
    | true => exact Nat.le_trans (Nat.le_of_eq (hdiscard inner s pushes)) (Nat.zero_le 1)
    | false =>
      by_cases hlength : (p.limits now draws).length ≤ 1
      · exact Nat.le_trans (hcount inner s pushes) hlength
      · obtain ⟨limit, bodyLimit, hlimits⟩ := exists_two_limits hlength
        rw [resets, stages_of_two_limits hlimits]
        exact resets_session_le_one hyields (horder limit bodyLimit hlimits)
          (countP_mayReset_of_isOpen (p.isOpen_openStages now)) s pushes

private def outerFirst : UrlPolicy where
  rule := { slots := { delay := some { kind := .timeout, seconds := 1.0 },
                       body := some { kind := .timeout, body := true, seconds := 2.0 } } }

private def innerFirst : UrlPolicy where
  rule := { slots := { delay := some { kind := .timeout, seconds := 2.0 },
                       body := some { kind := .timeout, body := true, seconds := 1.0 } } }

theorem resets_once_outer_first (divisible dropping : Bool) (pushes : List (Nat × Push)) :
    outerFirst.resets dropping ⟨0.0, 0.0⟩ (recorder divisible {}) 0 {} pushes ≤ 1 := by
  refine (outerFirst.resets_once_iff ⟨0.0, 0.0⟩ 0).2.mpr ?_ _ (prompt_recorder divisible).yields {} dropping pushes
  intro limit bodyLimit hlimits
  have : outerFirst.limits 0 ⟨0.0, 0.0⟩ = [1000000000, 2000000000] := by decide +kernel
  obtain ⟨rfl, rfl⟩ : limit = 1000000000 ∧ bodyLimit = 2000000000 := by simpa [this, eq_comm] using hlimits
  exact .inr (by decide)

theorem not_resets_once_inner_first :
    ¬∀ (p : UrlPolicy) dropping draws now pushes, p.resets dropping draws (recorder true {}) now {} pushes ≤ 1 := by
  intro h
  have htwice := h innerFirst false ⟨0.0, 0.0⟩ 0 [(1000000000, .flush), (1000000000, .flush)]
  exact absurd htwice (by decide +kernel)

end UrlPolicy

end TrafficPolicy
