import TrafficPolicy.Proofs.Stream.Carries
import TrafficPolicy.Stream.Stage

/-!
# When calls reach a sink

A timed sink notes the writes and flushes that reach it, each with the time at which it does. What calls do to
the clock and to these notes is put together from what their parts do, and it is enough to say once how: a
course is what may happen between two times, and it is closed under one thing happening after the other.
-/

namespace TrafficPolicy.Stream

structure Arrival where
  time : Nat
  push : Push
deriving DecidableEq, Repr

variable {σ τ υ α β : Type}

namespace Sink

def noting (push : Push) (call : Call σ Unit) : Call (List Arrival × σ) Unit := do
  let now ← Call.now
  Call.setOwn ((← Call.own) ++ [⟨now, push⟩])
  Call.inner call

def timed (inner : Sink σ) : Sink (List Arrival × σ) where
  divisible := inner.divisible
  write data := noting (.write data) (inner.write data)
  flush := noting .flush inner.flush
  reset := Call.inner inner.reset

/-- The run of a caller that waits before each call, and goes on after calls that fail. -/
def pushOn (sink : Sink σ) : List (Nat × Push) → Nat → σ → Ended σ Unit
  | [], now, s => ⟨.ok (), now, s⟩
  | (wait, push) :: rest, now, s =>
    match (sink.push push).run none (now + wait) s with
    | ⟨.endless, time, s⟩ => ⟨.endless, time, s⟩
    | ⟨_, time, s⟩ => pushOn sink rest time s

/-- A sink that takes every call at once. -/
structure Prompt (sink : Sink σ) : Prop where
  write : ∀ data horizon now s, ∃ next, (sink.write data).run horizon now s = ⟨.ok (), now, next⟩
  flush : ∀ horizon now s, ∃ next, sink.flush.run horizon now s = ⟨.ok (), now, next⟩
  reset : ∀ horizon now s, ∃ next, sink.reset.run horizon now s = ⟨.ok (), now, next⟩

end Sink

/-- What reaches a sink behind some stages when a caller begins at `now`. -/
def arrivals (stages : List Stage) (inner : Sink σ) (now : Nat) (s : σ) (pushes : List (Nat × Push)) :
    List Arrival :=
  (Nest.base _ ((inner.timed.behind stages.length).pushOn pushes now (Nest.ofStages stages ([], s))).state).1

/-! ## Watching arrivals -/

/-- A way to look at a state that contains a timed sink. -/
structure Watch (σ : Type) where
  /-- What the states are like between calls. -/
  fits : σ → Prop
  seen : σ → List Arrival

namespace Watch

def behind (own : τ → Prop) (watch : Watch σ) : Watch (τ × σ) where
  fits s := own s.1 ∧ watch.fits s.2
  seen s := watch.seen s.2

/-- From one state to another some arrivals have been added, all of a kind. -/
def Adds (watch : Watch σ) (kind : Arrival → Prop) (s t : σ) : Prop :=
  ∃ new, watch.seen t = watch.seen s ++ new ∧ ∀ a ∈ new, kind a

variable {watch : Watch σ} {kind weaker : Arrival → Prop} {s t u : σ}

theorem adds_nothing (h : watch.seen t = watch.seen s) : watch.Adds kind s t :=
  ⟨[], by rw [h, List.append_nil], by simp⟩

theorem adds_one {a : Arrival} (h : watch.seen t = watch.seen s ++ [a]) (ha : kind a) : watch.Adds kind s t :=
  ⟨[a], h, by simpa using ha⟩

theorem Adds.trans (hst : watch.Adds kind s t) (htu : watch.Adds kind t u) : watch.Adds kind s u := by
  obtain ⟨new, hnew, hkind⟩ := hst
  obtain ⟨new', hnew', hkind'⟩ := htu
  refine ⟨new ++ new', by rw [hnew', hnew, List.append_assoc], fun a ha => ?_⟩
  rcases List.mem_append.mp ha with ha | ha
  · exact hkind a ha
  · exact hkind' a ha

theorem Adds.mono (h : watch.Adds kind s t) (hkind : ∀ a, kind a → weaker a) : watch.Adds weaker s t := by
  obtain ⟨new, hnew, hall⟩ := h
  exact ⟨new, hnew, fun a ha => hkind a (hall a ha)⟩

end Watch

/-! ## Courses -/

/-- What may happen to a state between two times. -/
structure Course (σ : Type) where
  rel : Nat → σ → Nat → σ → Prop
  refl : ∀ now s, rel now s now s
  trans : ∀ {now mid time : Nat} {s m t : σ}, rel now s mid m → rel mid m time t → rel now s time t

namespace Course

def idle (watch : Watch σ) : Course σ where
  rel _ s _ t := watch.fits s → watch.fits t ∧ watch.seen t = watch.seen s
  refl _ _ hs := ⟨hs, rfl⟩
  trans hfirst hsecond hs := by
    obtain ⟨hm, hseen⟩ := hfirst hs
    obtain ⟨ht, hseen'⟩ := hsecond hm
    exact ⟨ht, hseen'.trans hseen⟩

/-- What arrives does so by a time. -/
def bounded (watch : Watch σ) (last : Nat) : Course σ where
  rel _ s _ t := watch.fits s → watch.fits t ∧ watch.Adds (·.time ≤ last) s t
  refl _ _ hs := ⟨hs, Watch.adds_nothing rfl⟩
  trans hfirst hsecond hs := by
    obtain ⟨hm, hadds⟩ := hfirst hs
    obtain ⟨ht, hadds'⟩ := hsecond hm
    exact ⟨ht, hadds.trans hadds'⟩

/-- Everything happens by a time, or at once if that has passed. -/
def timely (watch : Watch σ) (last : Nat) : Course σ where
  rel now s time t :=
    watch.fits s → watch.fits t ∧ time ≤ max now last ∧ watch.Adds (·.time ≤ max now last) s t
  refl _ _ hs := ⟨hs, Nat.le_max_left _ _, Watch.adds_nothing rfl⟩
  trans hfirst hsecond hs := by
    obtain ⟨hm, hmid, hadds⟩ := hfirst hs
    obtain ⟨ht, htime, hadds'⟩ := hsecond hm
    exact ⟨ht, by omega, hadds.trans (hadds'.mono fun a ha => by omega)⟩

theorem timely_mono {watch : Watch σ} {earlier last now time : Nat} {s t : σ} (hlast : earlier ≤ last)
    (h : (timely watch earlier).rel now s time t) : (timely watch last).rel now s time t := by
  intro hs
  obtain ⟨ht, htime, hadds⟩ := h hs
  exact ⟨ht, by omega, hadds.mono fun a ha => by omega⟩

end Course

namespace Call

variable {course : Course σ} {horizon : Option Nat}

def Follows (course : Course σ) (horizon : Option Nat) (call : Call σ α) : Prop :=
  ∀ now s, course.rel now s (call.run horizon now s).time (call.run horizon now s).state

theorem follows_pure (a : α) : Follows course horizon (pure a) :=
  fun now s => course.refl now s

theorem follows_fail (fault : Fault) : Follows course horizon (fail fault : Call σ α) :=
  fun now s => course.refl now s

theorem follows_now : Follows course horizon now :=
  fun now s => course.refl now s

theorem follows_horizon : Follows course horizon Call.horizon :=
  fun now s => course.refl now s

theorem follows_bind {first : Call σ α} {next : α → Call σ β} (hfirst : Follows course horizon first)
    (hnext : ∀ a, Follows course horizon (next a)) : Follows course horizon (first >>= next) := by
  intro now s
  rw [bind_run]
  have h := hfirst now s
  revert h
  rcases first.run horizon now s with ⟨a | _ | _ | _, time, t⟩ <;> intro h
  · exact course.trans h (hnext a time t)
  all_goals exact h

theorem follows_attempt {call : Call σ Unit} (h : Follows course horizon call) :
    Follows course horizon (attempt call) :=
  fun now s => h now s

theorem follows_each (items : List α) {body : α → Call σ Unit}
    (h : ∀ item ∈ items, Follows course horizon (body item)) : Follows course horizon (each items body) := by
  intro now s
  show course.rel now s (eachRun body horizon items now s).time (eachRun body horizon items now s).state
  induction items generalizing now s with
  | nil => exact course.refl now s
  | cons item items ih =>
    have hitem := h item List.mem_cons_self now s
    simp only [eachRun]
    revert hitem
    rcases (body item).run horizon now s with ⟨_ | _ | _ | _, time, t⟩ <;> intro hitem
    · exact course.trans hitem (ih (fun other hother => h other (List.mem_cons_of_mem _ hother)) time t)
    all_goals exact hitem

theorem follows_repeatFor {rounds : Nat} {start : α} {body : α → Call σ (α ⊕ β)}
    (h : ∀ a, Follows course horizon (body a)) : Follows course horizon (repeatFor rounds start body) := by
  intro now s
  show course.rel now s (repeatRun body horizon rounds start now s).time
    (repeatRun body horizon rounds start now s).state
  induction rounds generalizing start now s with
  | zero => exact course.refl now s
  | succ rounds ih =>
    have hround := h start now s
    simp only [repeatRun]
    revert hround
    rcases (body start).run horizon now s with ⟨(_ | _) | _ | _ | _, time, t⟩ <;> intro hround
    · exact course.trans hround (ih time t)
    all_goals exact hround

/-! ## Calls with a part of their own in the state -/

variable {watch : Watch σ} {P : τ → Prop}

/-- Nothing arrives during a call, whatever its horizon is. -/
def Idle (watch : Watch σ) (call : Call σ α) : Prop :=
  ∀ horizon, Follows (Course.idle watch) horizon call

/-- What arrives during a call does so by its horizon. -/
def Timely (watch : Watch σ) (call : Call σ α) : Prop :=
  ∀ last, Follows (Course.timely watch last) (some last) call

theorem Timely.bind {first : Call σ α} {next : α → Call σ β} (hfirst : Timely watch first)
    (hnext : ∀ a, Timely watch (next a)) : Timely watch (first >>= next) :=
  fun last => follows_bind (hfirst last) fun a => hnext a last

theorem timely_pure (a : α) : Timely watch (pure a) :=
  fun _ => follows_pure a

theorem timely_now : Timely watch now :=
  fun _ => follows_now

theorem timely_sleepUntil (deadline : Nat) : Timely watch (sleepUntil deadline) := by
  intro last now s hs
  simp only [sleepUntil]
  split
  · exact ⟨hs, Nat.le_max_left _ _, Watch.adds_nothing rfl⟩
  · split
    · refine ⟨hs, ?_, Watch.adds_nothing rfl⟩
      dsimp only
      omega
    · exact ⟨hs, Nat.le_refl _, Watch.adds_nothing rfl⟩

theorem timely_sleep (duration : Nat) : Timely watch (sleep duration) :=
  timely_now.bind fun _ => timely_sleepUntil _

theorem timely_within {deadline : Nat} {call late : Call σ α} (hcall : Timely watch call)
    (hlate : Timely watch late) : Timely watch (within deadline call late) := by
  intro last now s
  have hearlier : earlier (Clock.roundUp deadline) (some last) ≤ last := Nat.min_le_right _ _
  have h := Course.timely_mono hearlier (hcall (earlier (Clock.roundUp deadline) (some last)) now s)
  simp only [within]
  revert h
  rcases call.run (some (earlier (Clock.roundUp deadline) (some last))) now s with
    ⟨_ | _ | _ | _, time, t⟩ <;> intro h
  · exact h
  · exact h
  · simp only [withinRun]
    split
    · -- The call has been broken off at its own deadline, and something else is done from then on.
      exact (Course.timely watch last).trans h (hlate last time t)
    · exact h
  · exact h

theorem timely_inner {call : Call σ α} (h : Timely watch call) : Timely (watch.behind P) (inner call) := by
  intro last now s hs
  obtain ⟨hfits, htime, hadds⟩ := h last now s.2 hs.2
  exact ⟨⟨hs.1, hfits⟩, htime, hadds⟩

theorem timely_setOwn {value : τ} (h : P value) : Timely (watch.behind P) (setOwn value) :=
  fun _ _ _ hs => ⟨⟨h, hs.2⟩, Nat.le_max_left _ _, Watch.adds_nothing rfl⟩

theorem timely_own_bind {next : τ → Call (τ × σ) α} (h : ∀ value, P value → Timely (watch.behind P) (next value)) :
    Timely (watch.behind P) (own >>= next) :=
  fun last now s hs => h s.1 hs.1 last now s hs

theorem timely_choose {call : τ → Call (τ × σ) α} (h : ∀ value, P value → Timely (watch.behind P) (call value)) :
    Timely (watch.behind P) (choose call) :=
  fun last now s hs => h s.1 hs.1 last now s hs

theorem idle_inner {call : Call σ α} (h : Idle watch call) : Idle (watch.behind P) (inner call) := by
  intro horizon now s hs
  obtain ⟨hfits, hseen⟩ := h horizon now s.2 hs.2
  exact ⟨⟨hs.1, hfits⟩, hseen⟩

theorem idle_setOwn {value : τ} (h : P value) : Idle (watch.behind P) (setOwn value) :=
  fun _ _ _ hs => ⟨⟨h, hs.2⟩, rfl⟩

theorem idle_own_bind {next : τ → Call (τ × σ) α} (h : ∀ value, P value → Idle (watch.behind P) (next value)) :
    Idle (watch.behind P) (own >>= next) :=
  fun horizon now s hs => h s.1 hs.1 horizon now s hs

end Call

end TrafficPolicy.Stream
