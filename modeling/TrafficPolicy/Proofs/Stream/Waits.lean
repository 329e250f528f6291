import TrafficPolicy.Proofs.Stream.Carries
import TrafficPolicy.Stream.Pause

/-!
# One wait

A caller of a pause finds what a caller of the sink behind it finds who sleeps once: before the first call, or, if the
wait is for the body, before the call after the first flush that succeeds. It does not matter which calls there are,
which of them fail or are broken off, and how long they take.
-/

namespace TrafficPolicy.Stream

open Call

variable {σ τ α : Type} {inner : Sink σ}

/-! ## What a caller finds -/

def Ended.through (view : τ → σ) (ended : Ended τ α) : Ended σ α :=
  ⟨ended.verdict, ended.time, view ended.state⟩

/-- A call of a caller, who makes it some time after the one before has ended, and may break it off. -/
structure Visit (α : Type) where
  gap : Nat := 0
  horizon : Option Nat := none
  call : α

def Sink.visits (sink : Sink σ) (visits : List (Visit Push)) : List (Visit (Call σ Unit)) :=
  visits.map fun visit => { visit with call := sink.push visit.call }

def Visit.delayed (wait : Nat) (visit : Visit (Call σ Unit)) : Visit (Call σ Unit) :=
  { visit with
    call := do
      Call.sleep wait
      visit.call }

/-- How the calls of a caller end that begins at `now`. Nothing comes after a call that goes on for ever. -/
def ends : List (Visit (Call σ Unit)) → Nat → σ → List (Ended σ Unit)
  | [], _, _ => []
  | visit :: rest, now, s =>
    let ended := visit.call.run visit.horizon (now + visit.gap) s
    if ended.verdict = .endless then [ended] else ended :: ends rest ended.time ended.state

/-- The number of the first flush that succeeds, which ends the header. -/
def headerEnd (visits : List (Visit Push)) (ends : List (Ended σ Unit)) : Nat :=
  (visits.zip ends).findIdx fun entry => entry.1.call = .flush ∧ entry.2.verdict = .ok ()

theorem headerEnd_cons (visit : Visit Push) (visits : List (Visit Push)) (ended : Ended σ Unit)
    (ends : List (Ended σ Unit)) : headerEnd (visit :: visits) (ended :: ends) =
      if visit.call = .flush ∧ ended.verdict = .ok () then 0 else headerEnd visits ends + 1 := by
  rw [headerEnd, List.zip_cons_cons, List.findIdx_cons, cond_eq_ite]
  simp only [decide_eq_true_eq]
  rfl

namespace Pause

/-! ## One call -/

def held (p : Pause) (call : Call σ Unit) : Call σ Unit :=
  match p.inBody, p.wait with
  | true, some wait => do
    Call.sleep wait
    call
  | _, _ => call

def settled (p : Pause) : Pause :=
  ⟨if p.inBody then none else p.wait, p.inBody⟩

def after (p : Pause) (push : Push) (verdict : Verdict Unit) : Pause :=
  ⟨p.settled.wait, p.inBody || (push = .flush ∧ verdict = .ok ())⟩

theorem held_run (p : Pause) (call : Call σ Unit) (horizon : Option Nat) (now : Nat) (s : σ) :
    (p.held call).run horizon now s = followRun (fun _ => call) horizon ((p.held (pure ())).run horizon now s) := by
  obtain ⟨_ | wait, _ | _⟩ := p
  · rfl
  · rfl
  · rfl
  · show followRun _ horizon ((Call.sleep wait).run horizon now s) =
      followRun _ horizon (followRun _ horizon ((Call.sleep wait).run horizon now s))
    rcases (Call.sleep wait).run horizon now s with ⟨_ | _ | _ | _, time, t⟩ <;> rfl

private theorem sleep_run_own (wait : Nat) (horizon : Option Nat) (now : Nat) (s : σ) (t : τ) :
    (Call.sleep wait).run horizon now (t, s) =
      ⟨((Call.sleep wait).run horizon now s).verdict, ((Call.sleep wait).run horizon now s).time,
        (t, ((Call.sleep wait).run horizon now s).state)⟩ := by
  show (sleepUntil (now + wait)).run horizon now (t, s) = ⟨((sleepUntil (now + wait)).run horizon now s).verdict,
    ((sleepUntil (now + wait)).run horizon now s).time, (t, ((sleepUntil (now + wait)).run horizon now s).state)⟩
  simp only [sleepUntil]
  split
  · rfl
  · cases horizon with
    | none => rfl
    | some h =>
      dsimp only
      split <;> rfl

theorem settle_run_held (p : Pause) (horizon : Option Nat) (now : Nat) (s : σ) :
    settle.run horizon now (p, s) =
      ⟨((p.held (pure ())).run horizon now s).verdict, ((p.held (pure ())).run horizon now s).time,
        (p.settled, ((p.held (pure ())).run horizon now s).state)⟩ := by
  obtain ⟨_ | wait, _ | _⟩ := p
  · rfl
  · rfl
  · rfl
  · show (Call.sleep wait).run horizon now ((⟨none, true⟩ : Pause), s) =
      ⟨(followRun _ horizon ((Call.sleep wait).run horizon now s)).verdict,
        (followRun _ horizon ((Call.sleep wait).run horizon now s)).time,
        (⟨none, true⟩, (followRun _ horizon ((Call.sleep wait).run horizon now s)).state)⟩
    rw [sleep_run_own]
    rcases (Call.sleep wait).run horizon now s with ⟨_ | _ | _ | _, time, t⟩ <;> rfl

private theorem flush_settled_run (inner : Sink σ) (p : Pause) (horizon : Option Nat) (now : Nat) (s : σ) :
    (do
      Call.inner inner.flush
      setOwn { ← own with inBody := true } : Call (Pause × σ) Unit).run horizon now (p, s) =
      ⟨(inner.flush.run horizon now s).verdict, (inner.flush.run horizon now s).time,
        (⟨p.wait, p.inBody || (inner.flush.run horizon now s).verdict = .ok ()⟩,
          (inner.flush.run horizon now s).state)⟩ := by
  simp only [bind_run, Call.inner]
  rcases inner.flush.run horizon now s with ⟨_ | _ | _ | _, time, t⟩
  · simp [followRun, own, bind_run, Call.state, setOwn, Call.modify, finish, pure, give]
  all_goals simp [followRun]

/-- A call on a pause is the call behind it, which is held if the wait is due. -/
theorem push_run (inner : Sink σ) (p : Pause) (push : Push) (horizon : Option Nat) (now : Nat) (s : σ) :
    ((sink inner).push push).run horizon now (p, s) =
      ⟨((p.held (inner.push push)).run horizon now s).verdict, ((p.held (inner.push push)).run horizon now s).time,
        (p.after push ((p.held (inner.push push)).run horizon now s).verdict,
          ((p.held (inner.push push)).run horizon now s).state)⟩ := by
  rw [held_run p (inner.push push)]
  cases push with
  | write data =>
    simp only [Sink.push, sink, bind_run, settle_run_held]
    rcases (p.held (pure ())).run horizon now s with ⟨_ | _ | _ | _, time, t⟩
    · simp [followRun, Call.inner, after, settled]
    all_goals simp [followRun, after, settled]
  | flush =>
    simp only [Sink.push, sink, bind_run settle, settle_run_held]
    rcases (p.held (pure ())).run horizon now s with ⟨_ | _ | _ | _, time, t⟩
    · simp [followRun, flush_settled_run, after, settled]
    all_goals simp [followRun, after, settled]

/-! ## All calls -/

def seen (inner : Sink σ) (p : Pause) (visits : List (Visit Push)) (now : Nat) (s : σ) : List (Ended σ Unit) :=
  (ends ((sink inner).visits visits) now (p, s)).map (Ended.through Prod.snd)

variable {p : Pause} {visits : List (Visit Push)} {now : Nat} {s : σ}

theorem seen_cons (visit : Visit Push) {ended : Ended σ Unit}
    (h : (p.held (inner.push visit.call)).run visit.horizon (now + visit.gap) s = ended) :
    seen inner p (visit :: visits) now s = if ended.verdict = .endless then [ended]
      else ended :: seen inner (p.after visit.call ended.verdict) visits ended.time ended.state := by
  have hrun := push_run inner p visit.call visit.horizon (now + visit.gap) s
  rw [h] at hrun
  simp only [seen, Sink.visits, List.map_cons, ends, hrun]
  split <;> rfl

/-- Who has waited does not wait again. -/
theorem seen_of_waited (h : p.wait = none) : seen inner p visits now s = ends (inner.visits visits) now s := by
  induction visits generalizing p now s with
  | nil => rfl
  | cons visit visits ih =>
    have hheld : p.held (inner.push visit.call) = inner.push visit.call := by
      rw [held, h]
      split <;> simp_all
    rw [seen_cons visit rfl, hheld, ih (by simp [after, settled, h])]
    rfl

/-- A wait that is due is before the first call. -/
theorem seen_of_due (wait : Nat) : seen inner ⟨some wait, true⟩ visits now s =
    ends ((inner.visits visits).modify 0 (Visit.delayed wait)) now s := by
  cases visits with
  | nil => rfl
  | cons visit visits =>
    rw [seen_cons visit rfl, seen_of_waited rfl]
    rfl

/-- A wait for the body is before the call after the first flush that succeeds. -/
theorem seen_beforeBody (wait : Nat) : seen inner (beforeBody wait) visits now s =
    ends ((inner.visits visits).modify (headerEnd visits (seen inner (beforeBody wait) visits now s) + 1)
      (Visit.delayed wait)) now s := by
  induction visits generalizing now s with
  | nil => rfl
  | cons visit visits ih =>
    let ended := (inner.push visit.call).run visit.horizon (now + visit.gap) s
    have hseen : seen inner (beforeBody wait) (visit :: visits) now s = if ended.verdict = .endless then [ended]
        else ended :: seen inner ((beforeBody wait).after visit.call ended.verdict) visits ended.time ended.state :=
      seen_cons visit rfl
    have hends : ∀ rest : List (Visit (Call σ Unit)),
        ends ({ visit with call := inner.push visit.call } :: rest) now s =
          if ended.verdict = .endless then [ended] else ended :: ends rest ended.time ended.state := fun _ => rfl
    rw [hseen, Sink.visits, List.map_cons, List.modify_succ_cons, hends]
    split
    · rfl
    · -- The header ends with this call or in the calls after it.
      by_cases hend : visit.call = .flush ∧ ended.verdict = .ok ()
      · have hafter : (beforeBody wait).after visit.call ended.verdict = ⟨some wait, true⟩ := by
          simp [after, settled, beforeBody, hend]
        rw [hafter, headerEnd_cons, if_pos hend, seen_of_due]
        rfl
      · have hafter : (beforeBody wait).after visit.call ended.verdict = beforeBody wait := by
          simp [after, settled, beforeBody, hend]
        rw [hafter, headerEnd_cons, if_neg hend]
        exact congrArg (ended :: ·) ih

end Pause

end TrafficPolicy.Stream
