import TrafficPolicy.Clock

/-!
# Calls that take time

A call runs from a time on a state. It ends with a value, with a fault, or by being broken off when the
time given by its horizon has come; only sleeping takes time. What has been done to the state before a call
is broken off stays. Time never runs back, and no call is broken off before its horizon.
-/

namespace TrafficPolicy.Stream

inductive Fault where
  /-- The connection is broken. -/
  | broken (text : String)
  | timedOut
  /-- A writer took nothing. -/
  | writeZero
deriving DecidableEq, Repr

def Fault.message : Fault → String
  | .broken text => text
  | .timedOut => "response timed out"
  | .writeZero => "write zero"

inductive Verdict (α : Type) where
  | ok (value : α)
  | failed (fault : Fault)
  /-- It was broken off at its horizon. -/
  | cut
  /-- It would go on for ever. -/
  | endless
deriving DecidableEq, Repr

structure Ended (σ α : Type) where
  verdict : Verdict α
  time : Nat
  state : σ

structure Call (σ α : Type) where
  run : (horizon : Option Nat) → (now : Nat) → σ → Ended σ α
  now_le : ∀ horizon now s, now ≤ (run horizon now s).time
  horizon_le : ∀ horizon now s, (run horizon now s).verdict = .cut →
    ∃ h, horizon = some h ∧ h ≤ (run horizon now s).time

namespace Call

variable {σ τ υ α β : Type}

def finish (verdict : Verdict α) (h : verdict ≠ .cut) (next : σ → σ) : Call σ α where
  run _ now s := ⟨verdict, now, next s⟩
  now_le _ _ _ := Nat.le_refl _
  horizon_le _ _ _ hcut := absurd hcut h

def give (value : α) : Call σ α :=
  finish (.ok value) (by simp) id

def fail (fault : Fault) : Call σ α :=
  finish (.failed fault) (by simp) id

def endless : Call σ α :=
  finish .endless (by simp) id

def modify (next : σ → σ) : Call σ Unit :=
  finish (.ok ()) (by simp) next

def state : Call σ σ where
  run _ now s := ⟨.ok s, now, s⟩
  now_le _ _ _ := Nat.le_refl _
  horizon_le _ _ _ h := by simp at h

def now : Call σ Nat where
  run _ now s := ⟨.ok now, now, s⟩
  now_le _ _ _ := Nat.le_refl _
  horizon_le _ _ _ h := by simp at h

/-- The time at which the call will be broken off, if there is one. -/
def horizon : Call σ (Option Nat) where
  run horizon now s := ⟨.ok horizon, now, s⟩
  now_le _ _ _ := Nat.le_refl _
  horizon_le _ _ _ h := by simp at h

def followRun (next : α → Call σ β) (horizon : Option Nat) (first : Ended σ α) : Ended σ β :=
  match first with
  | ⟨.ok value, time, s⟩ => (next value).run horizon time s
  | ⟨.failed fault, time, s⟩ => ⟨.failed fault, time, s⟩
  | ⟨.cut, time, s⟩ => ⟨.cut, time, s⟩
  | ⟨.endless, time, s⟩ => ⟨.endless, time, s⟩

/-- Goes on with the value of a call unless it ends otherwise. -/
def andThen (first : Call σ α) (next : α → Call σ β) : Call σ β where
  run horizon now s := followRun next horizon (first.run horizon now s)
  now_le horizon now s := by
    have h := first.now_le horizon now s
    revert h
    rcases first.run horizon now s with ⟨_ | _ | _ | _, time, s'⟩ <;> intro h
    · exact Nat.le_trans h ((next _).now_le horizon time s')
    all_goals exact h
  horizon_le horizon now s := by
    have h := first.horizon_le horizon now s
    revert h
    rcases first.run horizon now s with ⟨_ | _ | _ | _, time, s'⟩ <;> intro h hcut
    · exact (next _).horizon_le horizon time s' hcut
    · simp [followRun] at hcut
    · exact h rfl
    · simp [followRun] at hcut

instance : Monad (Call σ) where
  pure := give
  bind := andThen

def eachRun (body : α → Call σ Unit) (horizon : Option Nat) : List α → Nat → σ → Ended σ Unit
  | [], now, s => ⟨.ok (), now, s⟩
  | a :: rest, now, s =>
    match (body a).run horizon now s with
    | ⟨.ok _, time, s⟩ => eachRun body horizon rest time s
    | ended => ended

def each (items : List α) (body : α → Call σ Unit) : Call σ Unit where
  run horizon now s := eachRun body horizon items now s
  now_le horizon now s := by
    induction items generalizing now s with
    | nil => exact Nat.le_refl _
    | cons a rest ih =>
      have h := (body a).now_le horizon now s
      revert h
      simp only [eachRun]
      rcases (body a).run horizon now s with ⟨_ | _ | _ | _, time, s'⟩ <;> intro h
      · exact Nat.le_trans h (ih time s')
      all_goals exact h
  horizon_le horizon now s := by
    induction items generalizing now s with
    | nil => simp [eachRun]
    | cons a rest ih =>
      have h := (body a).horizon_le horizon now s
      revert h
      simp only [eachRun]
      rcases (body a).run horizon now s with ⟨_ | _ | _ | _, time, s'⟩ <;> intro h
      · exact ih time s'
      all_goals exact h

def repeatRun (body : α → Call σ (α ⊕ β)) (horizon : Option Nat) :
    (rounds : Nat) → α → Nat → σ → Ended σ β
  | 0, _, now, s => ⟨.endless, now, s⟩
  | rounds + 1, a, now, s =>
    match (body a).run horizon now s with
    | ⟨.ok (.inl next), time, s⟩ => repeatRun body horizon rounds next time s
    | ⟨.ok (.inr result), time, s⟩ => ⟨.ok result, time, s⟩
    | ⟨.failed fault, time, s⟩ => ⟨.failed fault, time, s⟩
    | ⟨.cut, time, s⟩ => ⟨.cut, time, s⟩
    | ⟨.endless, time, s⟩ => ⟨.endless, time, s⟩

/-- Repeats a call until it gives a result; more than a number of rounds is taken for endless. -/
def repeatFor (rounds : Nat) (start : α) (body : α → Call σ (α ⊕ β)) : Call σ β where
  run horizon now s := repeatRun body horizon rounds start now s
  now_le horizon now s := by
    induction rounds generalizing start now s with
    | zero => exact Nat.le_refl _
    | succ rounds ih =>
      have h := (body start).now_le horizon now s
      revert h
      simp only [repeatRun]
      rcases (body start).run horizon now s with ⟨(_ | _) | _ | _ | _, time, s'⟩ <;> intro h
      · exact Nat.le_trans h (ih _ time s')
      all_goals exact h
  horizon_le horizon now s := by
    induction rounds generalizing start now s with
    | zero => simp [repeatRun]
    | succ rounds ih =>
      have h := (body start).horizon_le horizon now s
      revert h
      simp only [repeatRun]
      rcases (body start).run horizon now s with ⟨(_ | _) | _ | _ | _, time, s'⟩ <;> intro h
      · exact ih _ time s'
      · simp
      · simp
      · exact fun _ => h rfl
      · simp

/-- Sleeps until a deadline, or until the horizon if that comes first. -/
def sleepUntil (deadline : Nat) : Call σ Unit where
  run horizon now s :=
    if deadline ≤ now then ⟨.ok (), now, s⟩
    else
      let wake := Clock.roundUp deadline
      match horizon with
      | none => ⟨.ok (), wake, s⟩
      | some h => if wake ≤ h then ⟨.ok (), wake, s⟩ else ⟨.cut, max now h, s⟩
  now_le horizon now s := by
    have := Clock.le_roundUp deadline
    by_cases hd : deadline ≤ now
    · simp [hd]
    · rcases horizon with _ | h
      · simp only [hd]
        show now ≤ Clock.roundUp deadline
        omega
      · by_cases hw : Clock.roundUp deadline ≤ h
        · simp only [hd, hw]
          show now ≤ Clock.roundUp deadline
          omega
        · simp only [hd, hw]
          exact Nat.le_max_left _ _
  horizon_le horizon now s := by
    by_cases hd : deadline ≤ now
    · simp [hd]
    · rcases horizon with _ | h
      · simp [hd]
      · by_cases hw : Clock.roundUp deadline ≤ h
        · simp [hd, hw]
        · simp only [hd, hw]
          exact fun _ => ⟨h, rfl, Nat.le_max_right _ _⟩

def sleep (duration : Nat) : Call σ Unit := do
  sleepUntil ((← now) + duration)

def earlier (time : Nat) : Option Nat → Nat
  | none => time
  | some h => min time h

/-- The run of a call with a deadline of its own. -/
def withinRun (deadline : Nat) (late : Call σ α) (horizon : Option Nat) (first : Ended σ α) :
    Ended σ α :=
  match first with
  | ⟨.cut, time, s⟩ =>
    if Clock.roundUp deadline ≤ time then late.run horizon time s else ⟨.cut, time, s⟩
  | ended => ended

/-- Breaks a call off at a deadline and does something else then. -/
def within (deadline : Nat) (call late : Call σ α) : Call σ α where
  run horizon now s :=
    withinRun deadline late horizon
      (call.run (some (earlier (Clock.roundUp deadline) horizon)) now s)
  now_le horizon now s := by
    have h := call.now_le (some (earlier (Clock.roundUp deadline) horizon)) now s
    revert h
    rcases call.run (some (earlier (Clock.roundUp deadline) horizon)) now s with
      ⟨_ | _ | _ | _, time, s'⟩ <;> intro h
    · exact h
    · exact h
    · by_cases hd : Clock.roundUp deadline ≤ time
      · simp only [withinRun, hd, if_true]
        exact Nat.le_trans h (late.now_le horizon time s')
      · simp only [withinRun, hd, if_false]
        exact h
    · exact h
  horizon_le horizon now s := by
    have h := call.horizon_le (some (earlier (Clock.roundUp deadline) horizon)) now s
    revert h
    rcases call.run (some (earlier (Clock.roundUp deadline) horizon)) now s with
      ⟨_ | _ | _ | _, time, s'⟩ <;> intro h
    · simp [withinRun]
    · simp [withinRun]
    · obtain ⟨h', he, hle⟩ := h rfl
      have he : earlier (Clock.roundUp deadline) horizon = h' := Option.some.inj he
      have hle : earlier (Clock.roundUp deadline) horizon ≤ time := he ▸ hle
      by_cases hd : Clock.roundUp deadline ≤ time
      · simp only [withinRun, hd, if_true]
        exact late.horizon_le horizon time s'
      · simp only [withinRun, hd, if_false]
        intro _
        rcases horizon with _ | outer
        · exact absurd hle hd
        · refine ⟨outer, rfl, ?_⟩
          simp only [earlier] at hle
          omega
    · simp [withinRun]

/-- A call whose failure does not count. -/
def attempt (call : Call σ Unit) : Call σ Unit where
  run horizon now s :=
    let ended := call.run horizon now s
    { ended with
      verdict := match ended.verdict with
        | .failed _ => .ok ()
        | verdict => verdict }
  now_le := call.now_le
  horizon_le horizon now s h := by
    refine call.horizon_le horizon now s ?_
    revert h
    rcases call.run horizon now s with ⟨_ | _ | _ | _, time, s'⟩ <;> simp

/-! ## States with a part of one's own -/

/-- A call on the second part of a state. -/
def inner (call : Call σ α) : Call (τ × σ) α where
  run horizon now s :=
    let ended := call.run horizon now s.2
    ⟨ended.verdict, ended.time, s.1, ended.state⟩
  now_le horizon now s := call.now_le horizon now s.2
  horizon_le horizon now s := call.horizon_le horizon now s.2

def own : Call (τ × σ) τ := do
  return (← state).1

def setOwn (value : τ) : Call (τ × σ) Unit :=
  modify fun s => (value, s.2)

/-- A call whose own part of the state is `value`, kept as `wrap` of what it becomes. -/
def keeping (wrap : τ → υ) (value : τ) (call : Call (τ × σ) α) : Call (υ × σ) α where
  run horizon now s :=
    let ended := call.run horizon now (value, s.2)
    ⟨ended.verdict, ended.time, wrap ended.state.1, ended.state.2⟩
  now_le horizon now s := call.now_le horizon now (value, s.2)
  horizon_le horizon now s := call.horizon_le horizon now (value, s.2)

def choose (call : τ → Call (τ × σ) α) : Call (τ × σ) α where
  run horizon now s := (call s.1).run horizon now s
  now_le horizon now s := (call s.1).now_le horizon now s
  horizon_le horizon now s := (call s.1).horizon_le horizon now s

end Call

end TrafficPolicy.Stream
