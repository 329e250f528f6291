import TrafficPolicy.Proofs.Stream.Timely
import TrafficPolicy.Stream.Recorder
import TrafficPolicy.Stream.Shape

/-!
# What a limit to the time of a response holds back

A write is broken off when the limit has come, wherever it waits. A flush is not: it is only refused when it
begins too late. So the one thing that can come out after the limit is a flush that has begun before it and has
waited for a pause of the body.
-/

namespace TrafficPolicy

theorem Clock.roundUp_le_roundUp_iff {a b : Nat} : roundUp a ≤ roundUp b ↔ a ≤ roundUp b := by
  unfold roundUp tick
  omega

theorem Clock.wake_mono {now a b : Nat} (h : a ≤ b) : wake now a ≤ wake now b := by
  unfold wake roundUp tick
  split <;> split <;> omega

namespace Stream

open Call

variable {σ : Type} {watch : Watch σ} {inner : Sink σ}

/-! ## Flushes on their way to a sink -/

/-- A call comes out as one flush at the time at which it begins. -/
def FlushesAtOnce (watch : Watch σ) (call : Call σ Unit) : Prop :=
  ∀ horizon now s, watch.fits s → ∃ next, call.run horizon now s = ⟨.ok (), now, next⟩ ∧
    watch.fits next ∧ watch.seen next = watch.seen s ++ [⟨now, .flush⟩]

/-- A stage that a flush passes at once. -/
def Stage.IsOpen : Stage → Prop
  | .framer _ | .meter _ => True
  | _ => False

def Stage.WaitsAtMost (wait : Nat) : Stage → Prop
  | .pause p => ∀ w ∈ p.wait, w ≤ wait
  | _ => True

theorem Stage.lasting_isOpen : Lasting IsOpen := ⟨nofun, nofun, nofun, fun _ _ h => h, fun _ _ h => h⟩

theorem Stage.lasting_waitsAtMost (wait : Nat) : Lasting (WaitsAtMost wait) :=
  ⟨fun _ _ => nofun, fun _ h => h, fun _ h => h, fun _ _ h => h, fun _ _ h => h⟩

theorem Stage.IsOpen.waitsAtMost {stage : Stage} (h : stage.IsOpen) (wait : Nat) : stage.WaitsAtMost wait := by
  cases stage <;> trivial

theorem Sink.Prompt.flushesAtOnce_timed (h : inner.Prompt) : FlushesAtOnce (timedWatch σ) inner.timed.flush := by
  intro horizon now s _
  obtain ⟨next, hrun⟩ := h.flush horizon now s.2
  refine ⟨(s.1 ++ [⟨now, .flush⟩], next), ?_, trivial, rfl⟩
  rw [timed, noting_run]
  simp only [Call.inner, hrun]

theorem Stage.flushesAtOnce_sink (h : FlushesAtOnce watch inner.flush) :
    FlushesAtOnce (watch.behind IsOpen) (sink inner).flush := by
  intro horizon now ⟨stage, s⟩ ⟨hopen, hs⟩
  obtain ⟨next, hrun, hfits, hseen⟩ := h horizon now s hs
  refine ⟨(stage, next), ?_, ⟨hopen, hfits⟩, hseen⟩
  cases stage with
  | framer f =>
    show (Call.keeping Stage.framer f (Call.inner inner.flush)).run horizon now _ = _
    simp only [Call.keeping, Call.inner, hrun]
  | meter m =>
    show (Call.keeping Stage.meter m (Call.inner inner.flush)).run horizon now _ = _
    simp only [Call.keeping, Call.inner, hrun]
  | _ => cases hopen

theorem flushesAtOnce_behind (h : FlushesAtOnce watch inner.flush) (n : Nat) :
    FlushesAtOnce (watch.behindAll Stage.IsOpen n) (inner.behind n).flush := by
  induction n with
  | zero => exact h
  | succ n ih => exact Stage.flushesAtOnce_sink ih

def Pause.due (p : Pause) (now : Nat) : Nat :=
  if p.inBody then p.wait.elim now fun wait => Clock.wake now (now + wait) else now

def Pause.flushed (p : Pause) : Pause := ⟨if p.inBody then none else p.wait, true⟩

theorem sleep_run (wait now : Nat) (s : σ) :
    (sleep wait).run none now s = ⟨.ok (), Clock.wake now (now + wait), s⟩ := by
  show (sleepUntil (now + wait)).run none now s = _
  simp only [sleepUntil, Clock.wake]
  split <;> rfl

private theorem Pause.settle_run (p : Pause) (now : Nat) (s : σ) :
    settle.run none now (p, s) = ⟨.ok (), p.due now, (if p.inBody then { p with wait := none } else p, s)⟩ := by
  obtain ⟨wait, inBody⟩ := p
  cases wait with
  | none => cases inBody <;> rfl
  | some wait =>
    cases inBody with
    | false => rfl
    | true =>
      have hsleep := sleep_run wait now ((⟨none, true⟩ : Pause), s)
      simp only [settle, bind_run, own, Call.state, followRun, setOwn, Call.modify, finish, pure, give, id_eq,
        if_true, hsleep, due, Option.elim_some]

theorem Pause.flush_run (h : FlushesAtOnce watch inner.flush) (p : Pause) (now : Nat) {s : σ} (hs : watch.fits s) :
    ∃ next, (sink inner).flush.run none now (p, s) = ⟨.ok (), p.due now, (p.flushed, next)⟩ ∧
      watch.fits next ∧ watch.seen next = watch.seen s ++ [⟨p.due now, .flush⟩] := by
  obtain ⟨next, hrun, hfits, hseen⟩ := h none (p.due now) s hs
  refine ⟨next, ?_, hfits, hseen⟩
  simp only [sink, bind_run, settle_run, followRun, Call.inner, hrun, own, Call.state, setOwn, Call.modify, finish,
    pure, give, id_eq, flushed]
  split <;> rfl

theorem Stage.flush_run_pause (h : FlushesAtOnce watch inner.flush) (p : Pause) (now : Nat) {s : σ}
    (hs : watch.fits s) :
    ∃ next, (sink inner).flush.run none now (.pause p, s) = ⟨.ok (), p.due now, (.pause p.flushed, next)⟩ ∧
      watch.fits next ∧ watch.seen next = watch.seen s ++ [⟨p.due now, .flush⟩] := by
  obtain ⟨next, hrun, hnext⟩ := Pause.flush_run h p now hs
  refine ⟨next, ?_, hnext⟩
  show (Call.keeping Stage.pause p (Pause.sink inner).flush).run none now _ = _
  simp only [Call.keeping, hrun]

theorem Pause.due_le {p : Pause} {wait : Nat} (h : Stage.WaitsAtMost wait (.pause p)) (now : Nat) :
    p.due now ≤ Clock.wake now (now + wait) := by
  have hnow : now ≤ Clock.wake now (now + wait) := Clock.le_wake _ _
  unfold due
  split
  · cases hw : p.wait with
    | none => exact hnow
    | some w =>
      have hle : w ≤ wait := h w hw
      exact Clock.wake_mono (by omega)
  · exact hnow

/-- A flush waits no longer than a time. -/
def FlushesBy (watch : Watch σ) (wait : Nat) (call : Call σ Unit) : Prop :=
  ∀ now s, watch.fits s → watch.fits (call.run none now s).state ∧
    watch.Adds (fun a => a.push = .flush ∧ a.time ≤ Clock.wake now (now + wait)) s (call.run none now s).state

theorem FlushesAtOnce.flushesBy {call : Call σ Unit} (h : FlushesAtOnce watch call) (wait : Nat) :
    FlushesBy watch wait call := by
  intro now s hs
  obtain ⟨next, hrun, hfits, hseen⟩ := h none now s hs
  rw [hrun]
  exact ⟨hfits, Watch.adds_one hseen ⟨rfl, Clock.le_wake _ _⟩⟩

private theorem Deadline.lt_of_not_isOver {d : Deadline} {now : Nat} (h : ¬d.isOver now = true) : now < d.time := by
  simp only [isOver, Bool.or_eq_true, decide_eq_true_eq, not_or] at h
  omega

/-- A flush that a limit lets pass does not touch the limit, and is on its own from there on. -/
theorem Stage.flush_run_deadline (d : Deadline) (horizon : Option Nat) (now : Nat) (s : σ) :
    (sink inner).flush.run horizon now (.deadline d, s) = (Call.keeping Stage.deadline d
      (if d.isOver now then Deadline.expire inner else Call.inner inner.flush)).run horizon now (.deadline d, s) := by
  show (Call.keeping Stage.deadline d (Deadline.sink inner).flush).run horizon now _ = _
  simp only [Call.keeping, Deadline.flush_run]

theorem Stage.flushesBy_sink (h : FlushesAtOnce watch inner.flush) (hreset : Idle watch inner.reset) (wait : Nat) :
    FlushesBy (watch.behind (WaitsAtMost wait)) wait (sink inner).flush := by
  intro now ⟨stage, s⟩ ⟨hstage, hs⟩
  cases stage with
  | discard => exact ⟨⟨hstage, hs⟩, Watch.adds_nothing rfl⟩
  | pause p =>
    obtain ⟨next, hrun, hfits, hseen⟩ := flush_run_pause h p now hs
    rw [hrun]
    have hflushed : WaitsAtMost wait (.pause p.flushed) := by
      unfold Pause.flushed
      split
      · exact nofun
      · exact hstage
    exact ⟨⟨hflushed, hfits⟩, Watch.adds_one hseen ⟨rfl, Pause.due_le hstage now⟩⟩
  | deadline d =>
    simp only [flush_run_deadline]
    split
    · obtain ⟨⟨-, hfits⟩, hseen⟩ := Deadline.idle_expire (P := fun _ => True) (α := Unit) hreset
        (fun _ _ => trivial) none now (d, s) ⟨trivial, hs⟩
      exact ⟨⟨trivial, hfits⟩, Watch.adds_nothing hseen⟩
    · obtain ⟨hfits, hadds⟩ := h.flushesBy wait now s hs
      exact ⟨⟨trivial, hfits⟩, hadds⟩
  | framer f =>
    obtain ⟨⟨-, hfits⟩, hadds⟩ := (flushesAtOnce_sink h).flushesBy wait now (.framer f, s) ⟨trivial, hs⟩
    exact ⟨⟨trivial, hfits⟩, hadds⟩
  | meter m =>
    obtain ⟨⟨-, hfits⟩, hadds⟩ := (flushesAtOnce_sink h).flushesBy wait now (.meter m, s) ⟨trivial, hs⟩
    exact ⟨⟨trivial, hfits⟩, hadds⟩

/-! ## Behind a limit -/

def Watch.behindWait (watch : Watch σ) (wait : Nat) : (n : Nat) → Watch (Nest σ n)
  | 0 => watch
  | n + 1 => (watch.behindAll Stage.IsOpen n).behind (Stage.WaitsAtMost wait)

def Watch.behindLimit (watch : Watch σ) (limit : Nat) : Watch (Stage × σ) :=
  watch.behind fun stage => ∃ expired, stage = .deadline ⟨limit, expired⟩

theorem Watch.seen_behindWait (watch : Watch σ) (wait n : Nat) (s : Nest σ n) :
    (watch.behindWait wait n).seen s = watch.seen (Nest.base n s) := by
  cases n with
  | zero => rfl
  | succ n => exact watch.seen_behindAll _ n s.2

theorem punctual_behindWait (h : Punctual watch inner) (wait n : Nat) :
    Punctual (watch.behindWait wait n) (inner.behind n) := by
  cases n with
  | zero => exact h
  | succ n => exact Stage.punctual_sink (punctual_behind h Stage.lasting_isOpen n) (Stage.lasting_waitsAtMost wait)

theorem flushesBy_behindWait (h : inner.Prompt) (wait n : Nat) :
    FlushesBy ((Sink.timedWatch σ).behindWait wait n) wait (inner.timed.behind n).flush := by
  cases n with
  | zero => exact h.flushesAtOnce_timed.flushesBy wait
  | succ n =>
    have hidle := (punctual_behind h.punctual_timed Stage.lasting_isOpen n).idle
    exact Stage.flushesBy_sink (flushesAtOnce_behind h.flushesAtOnce_timed n) hidle wait

private theorem follows_writeSlice (h : Punctual watch inner) (limit : Nat) (slice : Bytes) :
    Follows (Course.bounded (watch.behind fun d : Deadline => d.time = limit) (Clock.roundUp limit)) none
      (Deadline.writeSlice inner slice) := by
  intro now ⟨d, s⟩ ⟨hd, hs⟩
  obtain rfl : d.time = limit := hd
  have hlimit := Clock.le_roundUp d.time
  have hexpire := Deadline.idle_expire (P := fun d' : Deadline => d'.time = d.time) (α := Unit) h.idle
    (fun _ hd => hd) none
  rw [Deadline.writeSlice_run]
  split
  · obtain ⟨hfits, hseen⟩ := hexpire now (d, s) ⟨rfl, hs⟩
    exact ⟨hfits, Watch.adds_nothing hseen⟩
  · rename_i hnot
    have hnow : now < d.time := Deadline.lt_of_not_isOver hnot
    have hwrite := timely_inner (P := fun d' : Deadline => d'.time = d.time) (h.write slice)
      (Clock.roundUp d.time) now (d, s) ⟨rfl, hs⟩
    have hmax : max now (Clock.roundUp d.time) = Clock.roundUp d.time := by omega
    rw [hmax] at hwrite
    simp only [within, earlier]
    revert hwrite
    rcases (Call.inner (inner.write slice)).run (some (Clock.roundUp d.time)) now (d, s) with
      ⟨_ | _ | _ | _, time, t⟩ <;> rintro ⟨hfits, -, hadds⟩
    · exact ⟨hfits, hadds⟩
    · exact ⟨hfits, hadds⟩
    · simp only [withinRun]
      split
      · obtain ⟨hfits', hseen⟩ := hexpire time t hfits
        exact ⟨hfits', hadds.trans (Watch.adds_nothing hseen)⟩
      · exact ⟨hfits, hadds⟩
    · exact ⟨hfits, hadds⟩

/-- A write brings nothing after the limit, wherever it may wait. -/
private theorem follows_write (h : Punctual watch inner) (limit : Nat) (data : Bytes) :
    Follows (Course.bounded (watch.behindLimit limit) (Clock.roundUp limit)) none
      ((Stage.sink inner).write data) := by
  rintro now ⟨stage, s⟩ ⟨⟨expired, rfl⟩, hs⟩
  have hwrite : Follows (Course.bounded (watch.behind fun d : Deadline => d.time = limit) (Clock.roundUp limit))
      none ((Deadline.sink inner).write data) := by
    simp only [Deadline.sink]
    split
    · exact follows_each _ fun slice _ => follows_writeSlice h limit slice
    · exact follows_writeSlice h limit data
  obtain ⟨⟨hd, hfits⟩, hadds⟩ := hwrite now (⟨limit, expired⟩, s) ⟨rfl, hs⟩
  exact ⟨⟨⟨_, congrArg Stage.deadline (congrArg (Deadline.mk · _) hd)⟩, hfits⟩, hadds⟩

/-- A flush brings nothing if the limit has come, and may wait otherwise. -/
private theorem adds_flush {wait : Nat} (h : FlushesBy watch wait inner.flush) (hreset : Idle watch inner.reset)
    (limit now : Nat) {s : Stage × σ} (hs : (watch.behindLimit limit).fits s) :
    (watch.behindLimit limit).fits ((Stage.sink inner).flush.run none now s).state ∧
      (watch.behindLimit limit).Adds
        (fun a => a.push = .flush ∧ now < limit ∧ a.time ≤ Clock.wake now (now + wait)) s
        ((Stage.sink inner).flush.run none now s).state := by
  obtain ⟨stage, s⟩ := s
  obtain ⟨⟨expired, rfl⟩, hs⟩ := hs
  simp only [Stage.flush_run_deadline]
  split
  · obtain ⟨⟨hd, hfits⟩, hseen⟩ := Deadline.idle_expire (P := fun d : Deadline => d.time = limit) (α := Unit) hreset
      (fun _ hd => hd) none now (⟨limit, expired⟩, s) ⟨rfl, hs⟩
    exact ⟨⟨⟨_, congrArg Stage.deadline (congrArg (Deadline.mk · _) hd)⟩, hfits⟩, Watch.adds_nothing hseen⟩
  · rename_i hnot
    have hnow : now < limit := Deadline.lt_of_not_isOver hnot
    obtain ⟨hfits, hadds⟩ := h now s hs
    exact ⟨⟨⟨expired, rfl⟩, hfits⟩, hadds.mono fun a ha => ⟨ha.1, hnow, ha.2⟩⟩

/-- What arrives behind a limit is in time, or is a flush that has begun in time. -/
def Late (first limit wait : Nat) (a : Arrival) : Prop :=
  a.push = .flush ∧ ∃ start, first ≤ start ∧ start < limit ∧ a.time ≤ Clock.wake start (start + wait)

private theorem adds_push {wait : Nat} (h : Punctual watch inner) (hflush : FlushesBy watch wait inner.flush)
    (limit : Nat) (push : Push) {first now : Nat} (hfirst : first ≤ now) {s : Stage × σ}
    (hs : (watch.behindLimit limit).fits s) :
    (watch.behindLimit limit).fits (((Stage.sink inner).push push).run none now s).state ∧
      (watch.behindLimit limit).Adds (fun a => a.time ≤ Clock.roundUp limit ∨ Late first limit wait a) s
        (((Stage.sink inner).push push).run none now s).state := by
  cases push with
  | write data =>
    obtain ⟨hfits, hadds⟩ := follows_write h limit data now s hs
    exact ⟨hfits, hadds.mono fun a ha => .inl ha⟩
  | flush =>
    obtain ⟨hfits, hadds⟩ := adds_flush hflush h.idle limit now hs
    exact ⟨hfits, hadds.mono fun a ha => .inr ⟨ha.1, now, hfirst, ha.2⟩⟩

private theorem adds_pushOn {wait : Nat} (h : Punctual watch inner) (hflush : FlushesBy watch wait inner.flush)
    (limit : Nat) (pushes : List (Nat × Push)) {first now : Nat} (hfirst : first ≤ now) {s : Stage × σ}
    (hs : (watch.behindLimit limit).fits s) :
    (watch.behindLimit limit).Adds (fun a => a.time ≤ Clock.roundUp limit ∨ Late first limit wait a) s
      ((Stage.sink inner).pushOn pushes now s).state := by
  induction pushes generalizing now s with
  | nil => exact Watch.adds_nothing rfl
  | cons entry pushes ih =>
    obtain ⟨gap, push⟩ := entry
    have hcall : first ≤ now + gap := Nat.le_add_right_of_le hfirst
    obtain ⟨hfits, hadds⟩ := adds_push h hflush limit push hcall hs
    have hlater := ((Stage.sink inner).push push).now_le none (now + gap) s
    simp only [Sink.pushOn]
    revert hfits hadds hlater
    rcases ((Stage.sink inner).push push).run none (now + gap) s with ⟨_ | _ | _ | _, time, t⟩ <;>
      intro hfits hadds hlater
    · exact hadds.trans (ih (by dsimp only at hlater; omega) hfits)
    · exact hadds.trans (ih (by dsimp only at hlater; omega) hfits)
    · exact hadds.trans (ih (by dsimp only at hlater; omega) hfits)
    · exact hadds

theorem Watch.fits_behindWait {stage? : Option Stage} {stages : List Stage} {wait : Nat}
    (hstage : ∀ stage ∈ stage?, stage.WaitsAtMost wait) (hstages : ∀ stage ∈ stages, stage.IsOpen) {s : σ}
    (hs : watch.fits s) :
    (watch.behindWait wait (stage?.toList ++ stages).length).fits (Nest.ofStages (stage?.toList ++ stages) s) := by
  cases stage? with
  | some stage => exact ⟨hstage stage rfl, fits_ofStages hstages hs⟩
  | none =>
    cases stages with
    | nil => exact hs
    | cons stage stages =>
      exact ⟨(hstages stage List.mem_cons_self).waitsAtMost wait,
        fits_ofStages (fun other hother => hstages other (List.mem_cons_of_mem _ hother)) hs⟩

/-- Behind a limit and a stage that may wait, all that arrives is in time but for flushes that have begun in
time. -/
theorem arrivals_limit (h : inner.Prompt) {stage? : Option Stage} {stages : List Stage} {wait : Nat}
    (hstage : ∀ stage ∈ stage?, stage.WaitsAtMost wait) (hstages : ∀ stage ∈ stages, stage.IsOpen)
    (limit now : Nat) (s : σ) (pushes : List (Nat × Push)) :
    ∀ a ∈ arrivals (.deadline ⟨limit, false⟩ :: (stage?.toList ++ stages)) inner now s pushes,
      a.time ≤ Clock.roundUp limit ∨ Late now limit wait a := by
  let rest := stage?.toList ++ stages
  let watch := (Sink.timedWatch σ).behindWait wait rest.length
  have hstart : (watch.behindLimit limit).fits (.deadline ⟨limit, false⟩, Nest.ofStages rest ([], s)) :=
    ⟨⟨false, rfl⟩, Watch.fits_behindWait hstage hstages trivial⟩
  obtain ⟨new, hnew, hall⟩ := adds_pushOn (punctual_behindWait h.punctual_timed wait rest.length)
    (flushesBy_behindWait h wait rest.length) limit pushes (Nat.le_refl now) hstart
  have hempty : watch.seen (Nest.ofStages rest ([], s)) = [] := by
    rw [Watch.seen_behindWait, Nest.base_ofStages]
    rfl
  have harrivals : arrivals (.deadline ⟨limit, false⟩ :: rest) inner now s pushes = new := by
    have hseen := (Sink.timedWatch σ).seen_behindWait wait rest.length
      ((Stage.sink (inner.timed.behind rest.length)).pushOn pushes now
        (.deadline ⟨limit, false⟩, Nest.ofStages rest ([], s))).state.2
    rw [show (watch.behindLimit limit).seen (.deadline ⟨limit, false⟩, Nest.ofStages rest ([], s)) = [] from hempty,
      List.nil_append] at hnew
    exact hseen.symm.trans hnew
  rw [harrivals]
  exact hall

theorem Sink.pushOn_cons {sink : Sink σ} {gap now time : Nat} {push : Push} {s t : σ}
    (h : (sink.push push).run none (now + gap) s = ⟨.ok (), time, t⟩) (pushes : List (Nat × Push)) :
    sink.pushOn ((gap, push) :: pushes) now s = sink.pushOn pushes time t := by
  simp only [pushOn, h]

private theorem limit_flush_run (h : FlushesAtOnce watch inner.flush) {limit now : Nat} (hnow : now < limit)
    (p : Pause) {s : σ} (hs : watch.fits s) :
    ∃ next, (Stage.sink (Stage.sink inner)).flush.run none now (.deadline ⟨limit, false⟩, .pause p, s) =
        ⟨.ok (), p.due now, (.deadline ⟨limit, false⟩, .pause p.flushed, next)⟩ ∧
      watch.fits next ∧ watch.seen next = watch.seen s ++ [⟨p.due now, .flush⟩] := by
  obtain ⟨next, hrun, hnext⟩ := Stage.flush_run_pause h p now hs
  have hopen : Deadline.isOver ⟨limit, false⟩ now = false := by
    simp only [Deadline.isOver, Bool.false_or, decide_eq_false_iff_not]
    omega
  refine ⟨next, ?_, hnext⟩
  rw [Stage.flush_run_deadline]
  simp only [Call.keeping, hopen, Bool.false_eq_true, if_false, Call.inner, hrun]

/-- A flush that begins in time comes out when the pause is over, however late that is. -/
theorem exists_arrival_after_pause (h : inner.Prompt) {stages : List Stage}
    (hstages : ∀ stage ∈ stages, stage.IsOpen) {limit now start wait : Nat} (hnow : now ≤ start)
    (hstart : start < limit) {p : Pause} (hp : p.wait = some wait) (s : σ) :
    ∃ pushes, ⟨Clock.wake start (start + wait), .flush⟩ ∈
      arrivals (.deadline ⟨limit, false⟩ :: .pause p :: stages) inner now s pushes := by
  let watch := (Sink.timedWatch σ).behindAll Stage.IsOpen stages.length
  let stack := Stage.sink (Stage.sink (inner.timed.behind stages.length))
  let begin : Stage × Stage × Nest (List Arrival × σ) stages.length :=
    (.deadline ⟨limit, false⟩, .pause p, Nest.ofStages stages ([], s))
  have hflush : FlushesAtOnce watch (inner.timed.behind stages.length).flush :=
    flushesAtOnce_behind h.flushesAtOnce_timed stages.length
  have hfits : watch.fits (Nest.ofStages stages ([], s)) := Watch.fits_ofStages hstages trivial
  have harrivals : ∀ {pushes ended}, stack.pushOn pushes now begin = ended →
      arrivals (.deadline ⟨limit, false⟩ :: .pause p :: stages) inner now s pushes = watch.seen ended.state.2.2 := by
    rintro pushes _ rfl
    rw [Watch.seen_behindAll]
    rfl
  have hgap : now + (start - now) = start := by omega
  by_cases hbody : p.inBody
  · obtain ⟨next, hrun, -, hnext⟩ := limit_flush_run hflush hstart p hfits
    have hdue : p.due start = Clock.wake start (start + wait) := by simp [Pause.due, hp, hbody]
    have hcall : (stack.push .flush).run none (now + (start - now)) begin = _ := hgap.symm ▸ hrun
    refine ⟨[(start - now, .flush)], ?_⟩
    rw [harrivals (Sink.pushOn_cons hcall []), ← hdue]
    show _ ∈ watch.seen next
    rw [hnext]
    exact List.mem_append_right _ List.mem_cons_self
  · -- The pause is for the body, so that it takes a first flush to make it due.
    obtain ⟨mid, hfirst, hmid, -⟩ := limit_flush_run hflush (Nat.lt_of_le_of_lt hnow hstart) p hfits
    obtain ⟨next, hrun, -, hnext⟩ := limit_flush_run hflush hstart p.flushed hmid
    have hdue : p.due now = now := by simp [Pause.due, hbody]
    have hdue' : p.flushed.due start = Clock.wake start (start + wait) := by
      simp [Pause.due, Pause.flushed, hp, hbody]
    rw [hdue] at hfirst
    have hcall : (stack.push .flush).run none (now + 0) begin = _ := hfirst
    have hcall' : (stack.push .flush).run none (now + (start - now))
        (.deadline ⟨limit, false⟩, .pause p.flushed, mid) = _ := hgap.symm ▸ hrun
    refine ⟨[(0, .flush), (start - now, .flush)], ?_⟩
    rw [harrivals ((Sink.pushOn_cons hcall _).trans (Sink.pushOn_cons hcall' [])), ← hdue']
    show _ ∈ watch.seen next
    rw [hnext]
    exact List.mem_append_right _ List.mem_cons_self

/-- A stage that discards leaves everything as it is. -/
theorem Stage.pushOn_discard (inner : Sink σ) (pushes : List (Nat × Push)) (now : Nat) (s : σ) :
    ((sink inner).pushOn pushes now (.discard, s)).state = (.discard, s) := by
  induction pushes generalizing now with
  | nil => rfl
  | cons entry pushes ih =>
    obtain ⟨gap, push⟩ := entry
    cases push <;> exact ih (now + gap)

/-- Nothing arrives behind a stage that discards. -/
theorem arrivals_discard (stages : List Stage) (inner : Sink σ) (now : Nat) (s : σ) (pushes : List (Nat × Push)) :
    arrivals (.discard :: stages) inner now s pushes = [] := by
  show (Nest.base _ ((Stage.sink (inner.timed.behind stages.length)).pushOn pushes now
    (.discard, Nest.ofStages stages ([], s))).state.2).1 = []
  rw [Stage.pushOn_discard, Nest.base_ofStages]

theorem Late.time_le {first limit wait : Nat} {a : Arrival} (h : Late first limit wait a)
    (hwait : first < limit → limit - 1 + wait ≤ Clock.roundUp limit) : a.time ≤ Clock.roundUp limit := by
  obtain ⟨-, start, hfirst, hstart, htime⟩ := h
  have hlast : start + wait ≤ Clock.roundUp limit := by
    have := hwait (by omega)
    omega
  have hround : Clock.roundUp (start + wait) ≤ Clock.roundUp limit := Clock.roundUp_le_roundUp_iff.mpr hlast
  refine Nat.le_trans htime ?_
  unfold Clock.wake
  split <;> omega

/-- A recorder that fails nowhere and does not wait takes every call at once. -/
theorem prompt_recorder (divisible : Bool) : (recorder divisible {}).Prompt where
  write data horizon now s := by
    have hsleep : (sleep 0).run horizon now s = ⟨.ok (), now, s⟩ := by
      show (sleepUntil (now + 0)).run horizon now s = _
      simp only [sleepUntil, Nat.add_zero, Nat.le_refl, if_true]
    refine ⟨(s.add {} now (.write data)).2, ?_⟩
    show followRun _ horizon ((sleep 0).run horizon now s) = _
    rw [hsleep]
    rfl
  flush _ _ _ := ⟨_, rfl⟩
  reset _ _ _ := ⟨_, rfl⟩

end Stream

/-! ## Policies -/

open TrafficPolicy.Stream

namespace UrlPolicy

variable {σ : Type} {p : UrlPolicy} {d : DelayPolicy} {inner : Sink σ}

/-- What reaches a sink, and when, behind the stages of a policy for a response that begins at `now`. -/
def arrivals (p : UrlPolicy) (dropping : Bool) (draws : Draws) (inner : Sink σ) (now : Nat) (s : σ)
    (pushes : List (Nat × Push)) : List Arrival :=
  Stream.arrivals (p.stages dropping now draws) inner now s pushes

def bodyStage? (p : UrlPolicy) (now : Nat) (draws : Draws) : Option Stage :=
  (p.get .body).bind fun b => b.stage? now draws.body

def openStages (p : UrlPolicy) (now : Nat) : List Stage :=
  ((p.get (.setting .chunked)).bind fun framing => framing.stage?).toList ++
    ((p.get (.setting .speed)).map fun rate => .meter (.starting now rate)).toList

theorem isOpen_openStages (p : UrlPolicy) (now : Nat) : ∀ stage ∈ p.openStages now, stage.IsOpen := by
  intro stage hstage
  simp only [openStages, List.mem_append, Option.mem_toList, Option.bind_eq_some_iff, Option.map_eq_some_iff] at hstage
  rcases hstage with ⟨framing, -, hframing⟩ | ⟨rate, -, rfl⟩
  · cases framing <;> cases hframing <;> trivial
  · trivial

theorem stages_of_timeout (hd : p.get .delay = some d) (hkind : d.kind = .timeout) (hrand : d.rand = false)
    (now : Nat) (draws : Draws) :
    p.stages false now draws =
      .deadline ⟨now + d.nanos, false⟩ :: ((p.bodyStage? now draws).toList ++ p.openStages now) := by
  have hnanos : min d.nanos Duration.maxNanos = d.nanos := Nat.min_eq_left (Duration.nanos_le_maxNanos d.seconds)
  have hstage : d.stage? now draws.delay = some (.deadline ⟨now + d.nanos, false⟩) := by
    simp only [DelayPolicy.stage?, hkind, DelayPolicy.sample, hrand, Bool.false_eq_true, if_false, Deadline.after,
      hnanos]
  simp only [stages, hd, Option.bind_some, hstage, bodyStage?, openStages, Bool.false_eq_true, if_false,
    List.nil_append, Option.toList_some, List.cons_append, List.append_assoc]

/-- The wait for the body, which is none unless the body is delayed. -/
def bodyWait (p : UrlPolicy) (draws : Draws) : Nat :=
  match p.get .body with
  | some b => if b.kind = .delay then b.sample draws.body else 0
  | none => 0

theorem waitsAtMost_bodyStage? (p : UrlPolicy) (now : Nat) (draws : Draws) :
    ∀ stage ∈ p.bodyStage? now draws, stage.WaitsAtMost (p.bodyWait draws) := by
  intro stage hstage
  obtain ⟨b, hb, hstage⟩ := Option.bind_eq_some_iff.mp hstage
  cases hkind : b.kind with
  | drop => simp [DelayPolicy.stage?, hkind] at hstage
  | timeout =>
    obtain rfl : Stage.deadline _ = stage := by simpa [DelayPolicy.stage?, hkind] using hstage
    trivial
  | delay =>
    have hwait : p.bodyWait draws = b.sample draws.body := by simp [bodyWait, hb, hkind]
    obtain rfl : Stage.pause _ = stage := by simpa [DelayPolicy.stage?, hkind] using hstage
    intro w hw
    rw [hwait]
    cases hbody : b.body <;> simp [hbody, Pause.beforeBody, Pause.beforeAll] at hw <;> omega

theorem exists_pause_of_bodyWait {draws : Draws} (h : 0 < p.bodyWait draws) (now : Nat) :
    ∃ pause : Pause, p.bodyStage? now draws = some (.pause pause) ∧ pause.wait = some (p.bodyWait draws) := by
  unfold bodyWait at h
  cases hb : p.get .body with
  | none =>
    rw [hb] at h
    cases h
  | some b =>
    rw [hb] at h
    dsimp only at h
    split at h
    · rename_i hkind
      have hwait : p.bodyWait draws = b.sample draws.body := by simp [bodyWait, hb, hkind]
      refine ⟨if b.body then .beforeBody (b.sample draws.body) else .beforeAll (b.sample draws.body), ?_, ?_⟩
      · simp only [bodyStage?, hb, Option.bind_some, DelayPolicy.stage?, hkind]
      · rw [hwait]
        split <;> rfl
    · cases h

/-- Behind a timeout every write is in time. The flushes are too exactly if a pause of the body that begins at the
last moment is over when the limit has come. -/
theorem arrivals_in_time_iff (hd : p.get .delay = some d) (hkind : d.kind = .timeout) (hrand : d.rand = false)
    (draws : Draws) (hinner : inner.Prompt) (now : Nat) (s : σ) :
    (∀ dropping pushes, ∀ a ∈ p.arrivals dropping draws inner now s pushes,
      a.push ≠ .flush → a.time ≤ Clock.roundUp (now + d.nanos)) ∧
    ((∀ dropping pushes, ∀ a ∈ p.arrivals dropping draws inner now s pushes,
      a.time ≤ Clock.roundUp (now + d.nanos)) ↔
        (0 < d.nanos → now + d.nanos - 1 + p.bodyWait draws ≤ Clock.roundUp (now + d.nanos))) := by
  have harrivals : ∀ dropping pushes, ∀ a ∈ p.arrivals dropping draws inner now s pushes,
      a.time ≤ Clock.roundUp (now + d.nanos) ∨ Late now (now + d.nanos) (p.bodyWait draws) a := by
    intro dropping pushes a ha
    unfold arrivals at ha
    cases dropping with
    | true =>
      rw [show p.stages true now draws = .discard :: p.stages false now draws from rfl, arrivals_discard] at ha
      cases ha
    | false =>
      rw [stages_of_timeout hd hkind hrand] at ha
      exact arrivals_limit hinner (p.waitsAtMost_bodyStage? now draws) (p.isOpen_openStages now) _ now s pushes a ha
  refine ⟨fun dropping pushes a ha hwrite => ?_, fun hall hpos => ?_, fun hwait dropping pushes a ha => ?_⟩
  · rcases harrivals dropping pushes a ha with htime | ⟨hflush, -⟩
    · exact htime
    · exact absurd hflush hwrite
  · rcases Nat.eq_zero_or_pos (p.bodyWait draws) with hzero | hbody
    · have := Clock.le_roundUp (now + d.nanos)
      omega
    · obtain ⟨pause, hstage, hpause⟩ := exists_pause_of_bodyWait hbody now
      obtain ⟨pushes, hmem⟩ := exists_arrival_after_pause hinner (p.isOpen_openStages now)
        (show now ≤ now + d.nanos - 1 by omega) (show now + d.nanos - 1 < now + d.nanos by omega) hpause s
      have htime := hall false pushes _ (by
        unfold arrivals
        rw [stages_of_timeout hd hkind hrand, hstage]
        exact hmem)
      exact Nat.le_trans (Clock.deadline_le_wake _ _) htime
  · rcases harrivals dropping pushes a ha with htime | hlate
    · exact htime
    · exact hlate.time_le fun hpos => hwait (by omega)

private def impatient : UrlPolicy where
  rule := { slots := { delay := some { kind := .timeout, seconds := 1.0 },
                       body := some { kind := .delay, body := true, seconds := 5.0 } } }

/-- A limit of one second holds where the body is not delayed. -/
theorem arrivals_in_time_one_second :
    ∃ (p : UrlPolicy) (d : DelayPolicy), p.get .delay = some d ∧ d.kind = .timeout ∧ d.rand = false ∧
      d.nanos = 1000000000 ∧ ∀ dropping draws divisible now pushes,
        ∀ a ∈ p.arrivals dropping draws (recorder divisible {}) now {} pushes,
          a.time ≤ Clock.roundUp (now + d.nanos) := by
  let d : DelayPolicy := { kind := .timeout, seconds := 1.0 }
  let p : UrlPolicy := { rule := { slots := { delay := some d } } }
  refine ⟨p, d, rfl, rfl, rfl, by decide +kernel, fun dropping draws divisible now pushes => ?_⟩
  refine (arrivals_in_time_iff (p := p) (d := d) rfl rfl rfl draws (prompt_recorder divisible) now {}).2.mpr ?_
    dropping pushes
  intro _
  have := Clock.le_roundUp (now + d.nanos)
  show now + d.nanos - 1 + 0 ≤ _
  omega

/-- A second flush that begins in time waits for the body and comes out four seconds late. -/
theorem not_arrivals_in_time_body_pause :
    ¬∀ (p : UrlPolicy) (d : DelayPolicy), p.get .delay = some d → d.kind = .timeout → d.rand = false →
      ∀ dropping draws now pushes, ∀ a ∈ p.arrivals dropping draws (recorder true {}) now {} pushes,
        a.time ≤ Clock.roundUp (now + d.nanos) := by
  intro h
  have hlate := h impatient _ rfl rfl rfl false ⟨0.0, 0.0⟩ 0 [(0, .flush), (0, .flush)] ⟨5000000000, .flush⟩
    (by decide +kernel)
  exact absurd hlate (by decide +kernel)

end UrlPolicy

end TrafficPolicy
