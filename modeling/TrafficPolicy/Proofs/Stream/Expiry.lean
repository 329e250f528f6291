import TrafficPolicy.Proofs.Stream.Actions
import TrafficPolicy.Proofs.Stream.Manners

/-!
# After the limit

Once a deadline has come, or the connection has been broken off, whether by the deadline itself or by the caller, it
stays like that, and every flush and every write of something is refused. A write of nothing is refused only by a sink
that takes each write in one piece: what may be cut has no slices then, and the deadline is looked at with each slice.
-/

namespace TrafficPolicy.Stream

open Call

variable {σ : Type} {inner : Sink σ}

/-! ## Callers -/

namespace Sink

def act (sink : Sink σ) : Action → Call σ Unit
  | .write bytes => sink.write bytes
  | .flush => sink.flush
  | .reset => sink.reset

/-- How far a caller may come, with the calls that it has made. A call may be broken off, but one that goes on for ever
is the last. -/
inductive Reaches (sink : Sink σ) (now : Nat) (s : σ) : List Action → Nat → σ → Prop
  | start : Reaches sink now s [] now s
  | wait {actions : List Action} {time : Nat} {t : σ} (gap : Nat) :
      Reaches sink now s actions time t → Reaches sink now s actions (time + gap) t
  | call {actions : List Action} {time : Nat} {t : σ} (action : Action) (horizon : Option Nat) :
      Reaches sink now s actions time t → ((sink.act action).run horizon time t).verdict ≠ .endless →
        Reaches sink now s (actions ++ [action]) ((sink.act action).run horizon time t).time
          ((sink.act action).run horizon time t).state

theorem Reaches.le {sink : Sink σ} {now time : Nat} {s t : σ} {actions : List Action}
    (h : sink.Reaches now s actions time t) : now ≤ time := by
  induction h with
  | start => exact Nat.le_refl now
  | wait gap _ ih => exact Nat.le_add_right_of_le ih
  | call action horizon _ _ ih => exact Nat.le_trans ih (Call.now_le _ _ _ _)

end Sink

def Verdict.Returns {α : Type} : Verdict α → Prop
  | .ok _ | .failed _ => True
  | .cut | .endless => False

namespace Deadline

/-! ## The mark of a deadline -/

/-- The deadline has been marked if the sink behind it has been reset, and only then. -/
def Marked (s : Deadline × List Action × σ) : Prop :=
  s.1.expired = true ↔ .reset ∈ s.2.1

/-- A deadline stays where it is, its mark is not taken away, and it tells whether the sink has been reset. -/
def marking (σ : Type) : Course (Deadline × List Action × σ) where
  rel _ a _ b := b.1.time = a.1.time ∧ (a.1.expired = true → b.1.expired = true) ∧ (Marked a → Marked b)
  refl _ _ := ⟨rfl, id, id⟩
  trans h h' := ⟨h'.1.trans h.1, h'.2.1 ∘ h.2.1, h'.2.2 ∘ h.2.2⟩

variable {horizon : Option Nat}

/-- A write or a flush that is handed on leaves the mark as it is. -/
private theorem marks_logging (action : Action) (h : action ≠ .reset) (call : Call σ Unit) :
    Follows (marking σ) horizon (Call.inner (Sink.logging action call)) := by
  rintro now ⟨d, log, s⟩
  refine ⟨rfl, id, ?_⟩
  show (d.expired = true ↔ .reset ∈ log) → (d.expired = true ↔ .reset ∈ log ++ [action])
  simp [h.symm]

private theorem marked_reset (d : Deadline) (horizon : Option Nat) (now : Nat) (log : List Action) (s : σ) :
    Marked ({ d with expired := true }, (inner.logged.reset.run horizon now (log, s)).state) := by
  show (true = true) ↔ Action.reset ∈ log ++ [.reset]
  simp

private theorem marks_expire {α : Type} :
    Follows (marking σ) horizon (expire inner.logged : Call (Deadline × List Action × σ) α) := by
  rintro now ⟨d, log, s⟩
  have hrun := (expire_run (α := α) inner.logged horizon now d (log, s)).2
  by_cases hd : d.expired = true
  · rw [if_pos hd] at hrun
    rw [hrun.1, hrun.2]
    exact (marking σ).refl now _
  · rw [if_neg hd] at hrun
    rw [hrun.1, hrun.2]
    exact ⟨rfl, fun _ => rfl, fun _ => marked_reset d horizon now log s⟩

private theorem marks_writeSlice (slice : Bytes) :
    Follows (marking σ) horizon (writeSlice inner.logged slice) := by
  rintro now ⟨d, s⟩
  rw [writeSlice_run]
  split
  · exact marks_expire now (d, s)
  · have hwrite : ∀ limit, Follows (marking σ) limit (Call.inner (inner.logged.write slice)) :=
      fun limit => marks_logging (.write slice) (by simp) (inner.write slice)
    rcases within_run d.time (Call.inner (inner.logged.write slice)) (expire inner.logged) horizon now (d, s) with
      hrun | hrun
    · rw [hrun]
      exact hwrite _ now (d, s)
    · rw [hrun]
      exact (marking σ).trans (hwrite _ now (d, s)) (marks_expire _ _)

theorem marks_call (action : Action) :
    Follows (marking σ) horizon ((sink inner.logged).act action) := by
  cases action with
  | write data =>
    simp only [Sink.act, sink]
    split
    · exact follows_each _ fun slice _ => marks_writeSlice slice
    · exact marks_writeSlice data
  | flush =>
    rintro now ⟨d, s⟩
    rw [Sink.act, flush_run]
    split
    · exact marks_expire now (d, s)
    · exact marks_logging .flush (by simp) inner.flush now (d, s)
  | reset =>
    rintro now ⟨d, log, s⟩
    exact ⟨rfl, fun _ => rfl, fun _ => marked_reset d horizon now log s⟩

theorem marking_reaches {now time : Nat} {s t : Deadline × List Action × σ} {actions : List Action}
    (h : (sink inner.logged).Reaches now s actions time t) : (marking σ).rel now s time t := by
  induction h with
  | start => exact (marking σ).refl now s
  | wait gap _ ih => exact ih
  | call action horizon _ _ ih => exact (marking σ).trans ih (marks_call action _ _)

/-- A caller that has broken the connection off finds the deadline marked. -/
theorem expired_of_reset {now time : Nat} {s t : Deadline × List Action × σ} {actions : List Action}
    (h : (sink inner.logged).Reaches now s actions time t) (hreset : .reset ∈ actions) : t.1.expired = true := by
  induction h with
  | start => cases hreset
  | wait gap _ ih => exact ih hreset
  | @call actions time t action horizon _ _ ih =>
    rcases List.mem_append.mp hreset with hbefore | hlast
    · exact (marks_call action time t).2.1 (ih hbefore)
    · obtain rfl := List.mem_singleton.mp hlast
      rfl

/-! ## Refusals -/

theorem slices_nil : slices [] = [] := by
  rw [slices]
  rfl

theorem slices_cons {data : Bytes} (h : data ≠ []) :
    slices data = data.take sliceLength :: slices (data.drop sliceLength) := by
  rw [slices, dif_neg h]

theorem expire_verdict_iff {α : Type} (d : Deadline) (horizon : Option Nat) (now : Nat) (s : σ) :
    ((expire inner : Call (Deadline × σ) α).run horizon now (d, s)).verdict = .failed .timedOut ↔
      d.expired = true ∨ (inner.reset.run horizon now s).verdict.Returns := by
  obtain ⟨time, expired⟩ := d
  cases expired with
  | true => exact iff_of_true rfl (.inl rfl)
  | false =>
    simp only [expire, bind_run, own, Call.state, followRun, setOwn, Call.modify, finish, attempt, Call.inner,
      pure, give, fail, id_eq, Bool.not_false, if_true, Bool.false_eq_true, false_or]
    rcases inner.reset.run horizon now s with ⟨_ | _ | _ | _, time, t⟩ <;> simp [Verdict.Returns]

private theorem writeSlice_of_isOver {d : Deadline} {now : Nat} (h : d.isOver now = true) (slice : Bytes)
    (horizon : Option Nat) (s : σ) :
    (writeSlice inner slice).run horizon now (d, s) = (expire inner).run horizon now (d, s) := by
  rw [writeSlice_run, if_pos h]

private theorem flush_of_isOver {d : Deadline} {now : Nat} (h : d.isOver now = true) (horizon : Option Nat) (s : σ) :
    (sink inner).flush.run horizon now (d, s) = (expire inner).run horizon now (d, s) := by
  rw [flush_run, if_pos h]

/-- The first slice of a write is refused, and so there is no other. -/
private theorem eachRun_of_isOver {d : Deadline} {now : Nat} (h : d.isOver now = true) (slice : Bytes)
    (rest : List Bytes) (horizon : Option Nat) (s : σ) :
    eachRun (writeSlice inner) horizon (slice :: rest) now (d, s) = (expire inner).run horizon now (d, s) := by
  have hnever := (expire_run (α := Unit) inner horizon now d s).1
  rw [eachRun, writeSlice_of_isOver h]
  revert hnever
  rcases (expire inner : Call (Deadline × σ) Unit).run horizon now (d, s) with ⟨_ | _ | _ | _, time, t⟩ <;> intro hnever
  · exact absurd rfl (hnever _)
  all_goals rfl

theorem push_write_nil (h : inner.divisible = true) (horizon : Option Nat) (now : Nat) (s : Deadline × σ) :
    ((sink inner).push (.write [])).run horizon now s = ⟨.ok (), now, s⟩ := by
  simp only [Sink.push, sink, if_pos h, slices_nil]
  rfl

/-- What is asked for when a deadline is over fails as too late, unless it is to write nothing in any number of pieces,
or to break the connection off does not come back. -/
theorem push_verdict_iff {d : Deadline} {now : Nat} (h : d.isOver now = true) (push : Push) (horizon : Option Nat)
    (s : σ) : (((sink inner).push push).run horizon now (d, s)).verdict = .failed .timedOut ↔
      (inner.divisible = true → push ≠ .write []) ∧
        (d.expired = true ∨ (inner.reset.run horizon now s).verdict.Returns) := by
  rw [← expire_verdict_iff (α := Unit)]
  cases push with
  | flush =>
    rw [Sink.push, flush_of_isOver h]
    exact (and_iff_right fun _ => nofun).symm
  | write data =>
    by_cases hdivisible : inner.divisible = true
    · by_cases hdata : data = []
      · subst hdata
        rw [push_write_nil hdivisible]
        simp [hdivisible]
      · have hrun :
            ((sink inner).push (.write data)).run horizon now (d, s) = (expire inner).run horizon now (d, s) := by
          simp only [Sink.push, sink, if_pos hdivisible, slices_cons hdata]
          exact eachRun_of_isOver h _ _ horizon s
        rw [hrun]
        simp [hdata]
    · simp only [Sink.push, sink, if_neg hdivisible, writeSlice_of_isOver h]
      exact (and_iff_right fun hcut => absurd hcut hdivisible).symm

/-- From the moment on at which the limit has come, or the sink has been reset, or the caller has reset it, every flush
and every write fails as too late, unless nothing is to be written and the sink lets writes be cut, or the reset of the
sink does not come back, which the first refusal waits for. -/
theorem refuses_iff (inner : Sink σ) {start limit time later : Nat} {s : σ} {t u : Deadline × List Action × σ}
    {before after : List Action} (hbefore : (sink inner.logged).Reaches start (.after start limit, [], s) before time t)
    (hover : (Deadline.after start limit).time ≤ time ∨ .reset ∈ t.2.1 ∨ .reset ∈ before)
    (hafter : (sink inner.logged).Reaches time t after later u) (push : Push) (horizon : Option Nat) :
    (((sink inner.logged).push push).run horizon later u).verdict = .failed .timedOut ↔
      (inner.divisible = true → push ≠ .write []) ∧
        (.reset ∈ u.2.1 ∨ (inner.reset.run horizon later u.2.2).verdict.Returns) := by
  obtain ⟨htime, -, hmarked⟩ := marking_reaches hbefore
  obtain ⟨htime', hexpired', hmarked'⟩ := marking_reaches hafter
  have hstart : Marked (Deadline.after start limit, ([] : List Action), s) := by
    show (false = true) ↔ Action.reset ∈ []
    simp
  have hu : Marked u := hmarked' (hmarked hstart)
  obtain ⟨d, log, v⟩ := u
  have hisOver : d.isOver later = true := by
    rw [isOver, Bool.or_eq_true, decide_eq_true_eq]
    rcases hover with hcome | hreset | hreset
    · right
      rw [show d.time = _ from htime'.trans htime]
      exact Nat.le_trans hcome hafter.le
    · exact .inl (hexpired' ((hmarked hstart).mpr hreset))
    · exact .inl (hexpired' (expired_of_reset hbefore hreset))
  refine (push_verdict_iff hisOver push horizon (log, v)).trans ?_
  exact and_congr Iff.rfl (or_congr hu Iff.rfl)

/-- A second after the start a flush is refused, which resets the sink, and then a write of one byte is. -/
theorem refuses_second_write :
    ∃ (time : Nat) (t : Deadline × List Action × Record),
      (sink (recorder true {}).logged).Reaches 0 (.after 0 1000000000, [], {}) [.flush] time t ∧
        (((sink (recorder true {}).logged).push (.write [1])).run none time t).verdict = .failed .timedOut := by
  have hwait : (sink (recorder true {}).logged).Reaches 0 (.after 0 1000000000, [], {}) [] 1000000000
      (.after 0 1000000000, [], {}) := by
    simpa using Sink.Reaches.start.wait 1000000000
  have hflush := hwait.call .flush none (by decide)
  refine ⟨_, _, hflush, ?_⟩
  refine (refuses_iff (recorder true {}) hflush (.inr (.inl ?_)) .start (.write [1]) none).mpr ⟨by simp, .inl ?_⟩
  · decide
  · decide

/-- The limit has come, and the connection has been broken off for that, but a write of nothing succeeds. -/
theorem not_refuses_empty_write :
    ¬∀ (inner : Sink Record) (start limit time later : Nat) (s : Record) (t u : Deadline × List Action × Record)
        (before after : List Action),
      (sink inner.logged).Reaches start (.after start limit, [], s) before time t →
      ((Deadline.after start limit).time ≤ time ∨ .reset ∈ t.2.1 ∨ .reset ∈ before) →
      (sink inner.logged).Reaches time t after later u → ∀ push,
        (((sink inner.logged).push push).run none later u).verdict = .failed .timedOut := by
  intro h
  have hstart : (sink (recorder true {}).logged).Reaches 0 (.after 0 1000000000, [], {}) [] 1000000000
      (.after 0 1000000000, [], {}) := by
    simpa using Sink.Reaches.start.wait 1000000000
  have hlate := h (recorder true {}) 0 1000000000 _ _ {} _ _ _ _ hstart (.inl (Nat.le_refl _)) .start (.write [])
  rw [push_write_nil rfl] at hlate
  cases hlate

end Deadline

end TrafficPolicy.Stream
