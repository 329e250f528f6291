import TrafficPolicy.Proofs.Stream.Actions
import TrafficPolicy.Proofs.Stream.Manners
import TrafficPolicy.Stream.Shape

/-!
# How often a sink is reset

A limit that has not run out breaks the connection off at most once, and then it has run out. So the resets that a
sink has seen, together with the limits in front of it that have not run out, never become more while a caller only
writes and flushes, and each reset that a caller asks for adds at most one.
-/

namespace TrafficPolicy.Stream

open Call

variable {σ τ α : Type} {inner : Sink σ} {first : Nat} {I : σ → Prop}

/-! ## What writes and flushes keep from a time on -/

def Course.any (σ : Type) : Course σ where
  rel _ _ _ _ := True
  refl _ _ := trivial
  trans _ _ := trivial

/-- Time does not run back, and what holds is kept from a time on. -/
def Course.holding (first : Nat) (I : σ → Prop) : Course σ where
  rel now s time t := now ≤ time ∧ (first ≤ now → I s → I t)
  refl now _ := ⟨Nat.le_refl now, fun _ hs => hs⟩
  trans h h' :=
    ⟨Nat.le_trans h.1 h'.1, fun hfirst hs => h'.2 (Nat.le_trans hfirst h.1) (h.2 hfirst hs)⟩

def Manners.holding (first : Nat) (I : σ → Prop) : Manners σ where
  write := .holding first I
  flush := .holding first I
  reset := .any σ
  waits _ h := ⟨h, fun _ hs => hs⟩
  write_of_flush h := h

theorem Sink.Obeys.pushOn_holding (h : inner.Obeys (.holding first I)) {now : Nat} (hnow : first ≤ now) {s : σ}
    (hs : I s) (pushes : List (Nat × Push)) : I (inner.pushOn pushes now s).state :=
  (h.pushOn pushes now s).2 hnow hs

/-! ## Limits -/

namespace Deadline

variable {limit : Nat} {quiet spent : σ → Prop}

/-- As long as a limit has not run out it keeps the sink behind it quiet, and a reset spends it. -/
structure Guards (first limit : Nat) (quiet spent : σ → Prop) (inner : Sink σ) : Prop where
  write : ∀ data last now s, first ≤ now → now < limit → last ≤ Clock.roundUp limit → quiet s →
    quiet ((inner.write data).run (some last) now s).state
  flush : ∀ horizon now s, first ≤ now → now < limit → quiet s → quiet (inner.flush.run horizon now s).state
  reset : ∀ horizon now s, quiet s → spent (inner.reset.run horizon now s).state

/-- The sink behind a limit is quiet until the limit has run out, and spent from then on. -/
def Guarded (limit : Nat) (quiet spent : σ → Prop) (s : Deadline × σ) : Prop :=
  s.1.time = limit ∧ if s.1.expired then spent s.2 else quiet s.2

private theorem follows_expire_guarded (h : Guards first limit quiet spent inner) {horizon : Option Nat} :
    Follows (Course.holding first (Guarded limit quiet spent)) horizon (expire inner : Call (Deadline × σ) α) := by
  rintro now ⟨d, s⟩
  refine ⟨(expire inner).now_le horizon now (d, s), fun _ ⟨htime, hs⟩ => ?_⟩
  have hrun := (expire_run (α := α) inner horizon now d s).2
  by_cases hd : d.expired = true
  · rw [if_pos hd] at hrun
    rw [hrun.2]
    exact ⟨htime, hs⟩
  · rw [if_neg hd] at hrun
    rw [hrun.2]
    exact ⟨htime, h.reset horizon now s (by simpa [hd] using hs)⟩

/-- A limit that is not over has not run out. -/
private theorem quiet_of_not_over {d : Deadline} {now : Nat} {s : σ} (hover : ¬d.isOver now = true)
    (hs : Guarded limit quiet spent (d, s)) : now < limit ∧ d.expired = false ∧ quiet s := by
  obtain ⟨rfl, hs⟩ := hs
  simp only [isOver, Bool.or_eq_true, decide_eq_true_eq, not_or, Nat.not_le, Bool.not_eq_true] at hover
  exact ⟨hover.2, hover.1, by simpa [hover.1] using hs⟩

private theorem follows_writeSlice_guarded (h : Guards first limit quiet spent inner) (slice : Bytes)
    {horizon : Option Nat} :
    Follows (Course.holding first (Guarded limit quiet spent)) horizon (writeSlice inner slice) := by
  rintro now ⟨d, s⟩
  rw [writeSlice_run]
  split
  · exact follows_expire_guarded h now (d, s)
  · rename_i hover
    have hwrite : (Course.holding first (Guarded limit quiet spent)).rel now (d, s)
        ((inner.write slice).run (some (earlier (Clock.roundUp d.time) horizon)) now s).time
        (d, ((inner.write slice).run (some (earlier (Clock.roundUp d.time) horizon)) now s).state) := by
      refine ⟨(inner.write slice).now_le _ now s, fun hnow hs => ?_⟩
      obtain ⟨hlimit, hd, hquiet⟩ := quiet_of_not_over hover hs
      have hlast : earlier (Clock.roundUp d.time) horizon ≤ Clock.roundUp limit := by
        rw [← hs.1]
        cases horizon with
        | none => exact Nat.le_refl _
        | some last => exact Nat.min_le_left _ _
      exact ⟨hs.1, by simpa [hd] using h.write slice _ now s hnow hlimit hlast hquiet⟩
    rcases within_run d.time (Call.inner (inner.write slice)) (expire inner) horizon now (d, s) with hrun | hrun
    · rw [hrun]
      exact hwrite
    · rw [hrun]
      exact (Course.holding first _).trans hwrite (follows_expire_guarded h _ _)

theorem obeys_guarded (h : Guards first limit quiet spent inner) :
    (sink inner).Obeys (.holding first (Guarded limit quiet spent)) where
  write data horizon := by
    simp only [sink]
    split
    · exact follows_each _ fun slice _ => follows_writeSlice_guarded h slice
    · exact follows_writeSlice_guarded h data
  flush horizon := by
    rintro now ⟨d, s⟩
    rw [flush_run]
    split
    · exact follows_expire_guarded h now (d, s)
    · rename_i hover
      refine ⟨inner.flush.now_le horizon now s, fun hnow hs => ?_⟩
      obtain ⟨hlimit, hd, hquiet⟩ := quiet_of_not_over hover hs
      exact ⟨hs.1, by simpa [hd, Call.inner] using h.flush horizon now s hnow hlimit hquiet⟩
  reset _ _ _ := trivial

end Deadline

/-! ## What resets cost -/

def Stage.mayReset : Stage → Bool
  | .deadline d => !d.expired
  | _ => false

/-- How many more resets a stage may bring about of its own accord. -/
def Stage.credit (stage : Stage) : Nat := if stage.mayReset then 1 else 0

/-- Writes and flushes never make a cost greater, and a reset makes it greater by one at most. -/
structure Sink.Spends (cost : σ → Nat) (sink : Sink σ) : Prop where
  keeps : ∀ most, sink.Obeys (.holding 0 fun s => cost s ≤ most)
  reset : ∀ horizon now s, cost (sink.reset.run horizon now s).state ≤ cost s + 1

variable {cost : σ → Nat}

theorem Sink.Spends.write_le (h : inner.Spends cost) (data : Bytes) (horizon : Option Nat) (now : Nat) (s : σ) :
    cost ((inner.write data).run horizon now s).state ≤ cost s :=
  ((h.keeps (cost s)).write data horizon now s).2 (Nat.zero_le now) (Nat.le_refl _)

theorem Sink.Spends.flush_le (h : inner.Spends cost) (horizon : Option Nat) (now : Nat) (s : σ) :
    cost (inner.flush.run horizon now s).state ≤ cost s :=
  ((h.keeps (cost s)).flush horizon now s).2 (Nat.zero_le now) (Nat.le_refl _)

/-- A limit that runs out pays for its reset. -/
theorem Sink.Spends.guards (h : inner.Spends cost) (limit most : Nat) :
    Deadline.Guards 0 limit (fun s => cost s + 1 ≤ most) (fun s => cost s ≤ most) inner where
  write data last now s _ _ _ hs := by
    have := h.write_le data (some last) now s
    omega
  flush horizon now s _ _ hs := by
    have := h.flush_le horizon now s
    omega
  reset horizon now s hs := by
    have := h.reset horizon now s
    omega

private theorem Deadline.guarded_cost_iff {limit most : Nat} {s : Deadline × σ} (htime : s.1.time = limit) :
    Guarded limit (fun s => cost s + 1 ≤ most) (fun s => cost s ≤ most) s ↔
      cost s.2 + (Stage.deadline s.1).credit ≤ most := by
  by_cases hexpired : s.1.expired = true <;> simp [Guarded, Stage.credit, Stage.mayReset, htime, hexpired]

private theorem Deadline.holding_cost {most now time : Nat} {s t : Deadline × σ}
    (h : (Course.holding 0 (Guarded s.1.time (fun s => cost s + 1 ≤ most) fun s => cost s ≤ most)).rel now s time t) :
    (Course.holding 0 fun s : Deadline × σ => cost s.2 + (Stage.deadline s.1).credit ≤ most).rel now s time t := by
  refine ⟨h.1, fun hnow hs => ?_⟩
  have hguarded := h.2 hnow ((guarded_cost_iff rfl).mpr hs)
  exact (guarded_cost_iff hguarded.1).mp hguarded

theorem Deadline.spends_sink (h : inner.Spends cost) :
    (sink inner).Spends fun s => cost s.2 + (Stage.deadline s.1).credit where
  keeps most :=
    { write := fun data horizon now s =>
        holding_cost ((obeys_guarded (h.guards s.1.time most)).write data horizon now s)
      flush := fun horizon now s => holding_cost ((obeys_guarded (h.guards s.1.time most)).flush horizon now s)
      reset := fun _ _ _ => trivial }
  reset horizon now s := Nat.le_trans (h.reset horizon now s.2) (Nat.add_le_add_right (Nat.le_add_right _ _) 1)

theorem Stage.spends_sink (h : inner.Spends cost) : (sink inner).Spends fun s => cost s.2 + s.1.credit where
  -- Only a limit has a credit, so the other stages keep the cost of the sink behind them.
  keeps most := by
    refine ⟨fun data horizon now s => ?_, fun horizon now s => ?_, fun _ _ _ => trivial⟩ <;> obtain ⟨stage, s⟩ := s
    · cases stage with
      | discard => exact (Course.holding 0 _).refl now _
      | pause p => exact (Pause.obeys_sink (h.keeps most)).write data horizon now (p, s)
      | deadline d => exact ((Deadline.spends_sink h).keeps most).write data horizon now (d, s)
      | framer f => exact (Framer.obeys_sink (h.keeps most)).write data horizon now (f, s)
      | meter m => exact (Meter.obeys_sink (h.keeps most)).write data horizon now (m, s)
    · cases stage with
      | discard => exact (Course.holding 0 _).refl now _
      | pause p => exact (Pause.obeys_sink (h.keeps most)).flush horizon now (p, s)
      | deadline d => exact ((Deadline.spends_sink h).keeps most).flush horizon now (d, s)
      | framer f => exact (Framer.obeys_sink (h.keeps most)).flush horizon now (f, s)
      | meter m => exact (Meter.obeys_sink (h.keeps most)).flush horizon now (m, s)
  reset horizon now s := by
    obtain ⟨stage, s⟩ := s
    cases stage with
    | deadline d => exact (Deadline.spends_sink h).reset horizon now (d, s)
    | _ => exact h.reset horizon now s

/-! ## Stages one behind the other -/

def Nest.resets (n : Nat) (s : Nest (List Action × σ) n) : Nat := (actions n s).count .reset

/-- How often a sink behind some stages has been reset, and how often the stages may yet do so. -/
def Nest.charge : (n : Nat) → Nest (List Action × σ) n → Nat
  | 0, s => s.1.count .reset
  | n + 1, s => charge n s.2 + s.1.credit

theorem Nest.resets_le_charge (n : Nat) (s : Nest (List Action × σ) n) : resets n s ≤ charge n s := by
  induction n with
  | zero => exact Nat.le_refl _
  | succ n ih => exact Nat.le_trans (ih s.2) (Nat.le_add_right _ _)

theorem Nest.charge_fresh (stages : List Stage) (s : σ) :
    charge _ (fresh stages s) = stages.countP Stage.mayReset := by
  induction stages with
  | nil => rfl
  | cons stage stages ih =>
    rw [List.countP_cons, ← ih]
    rfl

theorem Sink.obeys_logged (inner : Sink σ) (most : Nat) :
    inner.logged.Obeys (.holding 0 fun s => s.1.count .reset ≤ most) where
  write data horizon now s := by
    refine ⟨(inner.logged.write data).now_le horizon now s, fun _ hs => ?_⟩
    have hlog : ((inner.logged.write data).run horizon now s).state.1 = s.1 ++ [.write data] := rfl
    simpa [hlog] using hs
  flush horizon now s := by
    refine ⟨inner.logged.flush.now_le horizon now s, fun _ hs => ?_⟩
    have hlog : (inner.logged.flush.run horizon now s).state.1 = s.1 ++ [.flush] := rfl
    simpa [hlog] using hs
  reset _ _ _ := trivial

theorem Sink.spends_logged (inner : Sink σ) : inner.logged.Spends fun s => s.1.count .reset where
  keeps := inner.obeys_logged
  reset horizon now s := by
    have hlog : (inner.logged.reset.run horizon now s).state.1 = s.1 ++ [.reset] := rfl
    simp [hlog]

theorem Sink.spends_behind (inner : Sink σ) (n : Nat) : (inner.logged.behind n).Spends (Nest.charge n) := by
  induction n with
  | zero => exact inner.spends_logged
  | succ n ih => exact Stage.spends_sink ih

/-- A sink is not reset more often than there are limits in front of it that have not run out. -/
theorem resets_session_le (stages : List Stage) (inner : Sink σ) (now : Nat) (s : σ) (pushes : List (Nat × Push)) :
    Nest.resets _ (session stages inner now s pushes).state ≤ stages.countP Stage.mayReset := by
  have hcharge : Nest.charge _ (session stages inner now s pushes).state ≤ stages.countP Stage.mayReset := by
    refine ((inner.spends_behind stages.length).keeps _).pushOn_holding (Nat.zero_le now) ?_ pushes
    exact Nat.le_of_eq (Nest.charge_fresh stages s)
  exact Nat.le_trans (Nest.resets_le_charge _ _) hcharge

end TrafficPolicy.Stream
