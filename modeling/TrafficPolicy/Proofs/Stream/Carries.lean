import TrafficPolicy.Proofs.Stream.Trace

/-!
# Calls that carry bytes to a sink

A call carries some bytes if what reaches the sink during it is a prefix of them, wherever it ends, and if
nothing but what its value leaves over is missing when it succeeds. This is put together along the way in which
calls are.
-/

namespace TrafficPolicy.Stream

/-- A way to look at a state that contains a traced sink. -/
structure View (σ : Type) where
  /-- Whether everything between the caller and the sink lets bytes through. -/
  passes : σ → Prop
  trace : σ → Trace

def View.behind {σ : Type} (τ : Type) (view : View σ) : View (τ × σ) where
  passes s := view.passes s.2
  trace s := view.trace s.2

namespace Call

variable {σ τ υ α β : Type} {view : View σ}

/-- Nothing reaches the sink. -/
def Quiet (view : View σ) (call : Call σ α) : Prop :=
  ∀ horizon now s, view.passes s →
    view.passes (call.run horizon now s).state ∧
      view.trace (call.run horizon now s).state = view.trace s

/-- What reaches the sink is a prefix of `data`, which lacks what the value leaves over. -/
def Carries (view : View σ) (call : Call σ α) (data : Bytes) (left : α → Bytes) : Prop :=
  ∀ horizon now s, view.passes s → (view.trace s).pending = none →
    view.passes (call.run horizon now s).state ∧
      ∃ new, (view.trace (call.run horizon now s).state).done = (view.trace s).done ++ new ∧
        bytesOf (new ++ (view.trace (call.run horizon now s).state).pending.toList) <+: data ∧
        ∀ a, (call.run horizon now s).verdict = .ok a →
          (view.trace (call.run horizon now s).state).pending = none ∧ bytesOf new ++ left a = data

/-- A flush reaches the sink, and nothing else does. -/
def Flushes (view : View σ) (call : Call σ Unit) : Prop :=
  ∀ horizon now s, view.passes s → (view.trace s).pending = none →
    view.passes (call.run horizon now s).state ∧
      ∃ new, (view.trace (call.run horizon now s).state).done = (view.trace s).done ++ new ∧
        bytesOf (new ++ (view.trace (call.run horizon now s).state).pending.toList) = [] ∧
        ((call.run horizon now s).verdict = .ok () →
          (view.trace (call.run horizon now s).state).pending = none ∧ new = [.flush])

def Refuses (view : View σ) (call : Call σ α) : Prop :=
  Quiet view call ∧ ∀ horizon now s a, (call.run horizon now s).verdict ≠ .ok a

theorem bind_run (first : Call σ α) (next : α → Call σ β) (horizon : Option Nat) (now : Nat) (s : σ) :
    (first >>= next).run horizon now s = followRun next horizon (first.run horizon now s) := rfl

/-! ## Calls that reach nothing -/

theorem quiet_pure (a : α) : Quiet view (pure a) :=
  fun _ _ _ h => ⟨h, rfl⟩

theorem quiet_now : Quiet view now :=
  fun _ _ _ h => ⟨h, rfl⟩

theorem quiet_horizon : Quiet view horizon :=
  fun _ _ _ h => ⟨h, rfl⟩

theorem quiet_fail (fault : Fault) : Quiet view (fail fault : Call σ α) :=
  fun _ _ _ h => ⟨h, rfl⟩

theorem quiet_bind {first : Call σ α} {next : α → Call σ β} (hfirst : Quiet view first)
    (hnext : ∀ a, Quiet view (next a)) : Quiet view (first >>= next) := by
  intro horizon now s hs
  rw [bind_run]
  obtain ⟨hpasses, htrace⟩ := hfirst horizon now s hs
  revert hpasses htrace
  rcases first.run horizon now s with ⟨a | _ | _ | _, time, s'⟩ <;> intro hpasses htrace
  · obtain ⟨hpasses', htrace'⟩ := hnext a horizon time s' hpasses
    exact ⟨hpasses', htrace'.trans htrace⟩
  all_goals exact ⟨hpasses, htrace⟩

theorem quiet_sleepUntil (deadline : Nat) : Quiet view (sleepUntil deadline) := by
  intro horizon now s hs
  simp only [sleepUntil]
  split
  · exact ⟨hs, rfl⟩
  · rcases horizon with _ | h
    · exact ⟨hs, rfl⟩
    · dsimp only
      split <;> exact ⟨hs, rfl⟩

theorem quiet_sleep (duration : Nat) : Quiet view (sleep duration) :=
  quiet_bind quiet_now fun _ => quiet_sleepUntil _

theorem quiet_own : Quiet (view.behind τ) own :=
  fun _ _ _ h => ⟨h, rfl⟩

theorem quiet_setOwn (value : τ) : Quiet (view.behind τ) (setOwn value) :=
  fun _ _ _ h => ⟨h, rfl⟩

theorem quiet_attempt {call : Call σ Unit} (h : Quiet view call) : Quiet view (attempt call) :=
  fun horizon now s hs => h horizon now s hs

theorem quiet_inner {call : Call σ α} (h : Quiet view call) : Quiet (view.behind τ) (inner call) :=
  fun horizon now s hs => h horizon now s.2 hs

/-! ## Calls that carry bytes -/

theorem Quiet.carries {call : Call σ α} (h : Quiet view call) (data : Bytes) :
    Carries view call data fun _ => data := by
  intro horizon now s hs hpending
  obtain ⟨hpasses, htrace⟩ := h horizon now s hs
  refine ⟨hpasses, [], ?_⟩
  rw [htrace, hpending]
  exact ⟨by simp, by simp, by simp⟩

theorem carries_pure {a : α} {data : Bytes} {left : α → Bytes} (h : left a = data) :
    Carries view (pure a) data left := by
  intro horizon now s hs hpending
  refine ⟨hs, [], (List.append_nil _).symm, ?_, ?_⟩
  · simp [pure, give, finish, hpending]
  · intro b hb
    obtain rfl := (Verdict.ok.inj hb)
    exact ⟨hpending, h⟩

theorem carries_bind {first : Call σ α} {next : α → Call σ β} {data : Bytes} {left : α → Bytes}
    {left' : β → Bytes} (hfirst : Carries view first data left)
    (hnext : ∀ a, Carries view (next a) (left a) left') : Carries view (first >>= next) data left' := by
  intro horizon now s hs hpending
  rw [bind_run]
  obtain ⟨hpasses, new, hdone, hprefix, hok⟩ := hfirst horizon now s hs hpending
  revert hpasses hdone hprefix hok
  rcases first.run horizon now s with ⟨a | _ | _ | _, time, s'⟩ <;> intro hpasses hdone hprefix hok
  · obtain ⟨hpending', hdata⟩ := hok a rfl
    obtain ⟨hpasses', new', hdone', hprefix', hok'⟩ := hnext a horizon time s' hpasses hpending'
    refine ⟨hpasses', new ++ new', ?_, ?_, ?_⟩
    · rw [← List.append_assoc, ← hdone]
      exact hdone'
    · rw [← hdata, List.append_assoc, bytesOf_append]
      exact (List.prefix_append_right_inj _).mpr hprefix'
    · intro b hb
      obtain ⟨hpending'', hdata'⟩ := hok' b hb
      refine ⟨hpending'', ?_⟩
      rw [bytesOf_append, List.append_assoc, hdata', hdata]
  all_goals exact ⟨hpasses, new, hdone, hprefix, by simp [followRun]⟩

/-- Bytes that follow do not change how a call carries what comes first. -/
theorem Carries.append {call : Call σ α} {data : Bytes} {left : α → Bytes}
    (h : Carries view call data left) (later : Bytes) :
    Carries view call (data ++ later) fun a => left a ++ later := by
  intro horizon now s hs hpending
  obtain ⟨hpasses, new, hdone, hprefix, hok⟩ := h horizon now s hs hpending
  refine ⟨hpasses, new, hdone, hprefix.trans (List.prefix_append _ _), fun a ha => ?_⟩
  obtain ⟨hpending', hdata⟩ := hok a ha
  exact ⟨hpending', by rw [← List.append_assoc, hdata]⟩

theorem Flushes.carries {call : Call σ Unit} (h : Flushes view call) (data : Bytes) :
    Carries view call data fun _ => data := by
  intro horizon now s hs hpending
  obtain ⟨hpasses, new, hdone, hempty, hok⟩ := h horizon now s hs hpending
  refine ⟨hpasses, new, hdone, by simp [hempty], fun _ ha => ?_⟩
  obtain ⟨hpending', rfl⟩ := hok ha
  exact ⟨hpending', rfl⟩

theorem Quiet.bind_carries {first : Call σ α} {next : α → Call σ β} {data : Bytes} {left : β → Bytes}
    (hfirst : Quiet view first) (hnext : ∀ a, Carries view (next a) data left) :
    Carries view (first >>= next) data left :=
  carries_bind (hfirst.carries data) hnext

theorem Quiet.bind_flushes {first : Call σ α} {next : α → Call σ Unit} (hfirst : Quiet view first)
    (hnext : ∀ a, Flushes view (next a)) : Flushes view (first >>= next) := by
  intro horizon now s hs hpending
  rw [bind_run]
  obtain ⟨hpasses, htrace⟩ := hfirst horizon now s hs
  revert hpasses htrace
  rcases first.run horizon now s with ⟨a | _ | _ | _, time, s'⟩ <;> intro hpasses htrace
  · have h := hnext a horizon time s' hpasses (by rw [htrace]; exact hpending)
    rw [htrace] at h
    exact h
  all_goals
    refine ⟨hpasses, [], ?_, ?_, by simp [followRun]⟩
    · simp [followRun, htrace]
    · simp [followRun, htrace, hpending]

theorem Flushes.bind_quiet {first : Call σ Unit} {next : Unit → Call σ Unit} (hfirst : Flushes view first)
    (hnext : ∀ a, Quiet view (next a)) : Flushes view (first >>= next) := by
  intro horizon now s hs hpending
  rw [bind_run]
  obtain ⟨hpasses, new, hdone, hempty, hok⟩ := hfirst horizon now s hs hpending
  revert hpasses hdone hempty hok
  rcases first.run horizon now s with ⟨a | _ | _ | _, time, s'⟩ <;> intro hpasses hdone hempty hok
  · obtain ⟨hpasses', htrace⟩ := hnext a horizon time s' hpasses
    refine ⟨hpasses', new, ?_, ?_, fun _ => ?_⟩
    · simpa only [followRun, htrace] using hdone
    · simpa only [followRun, htrace] using hempty
    · simpa only [followRun, htrace] using hok rfl
  all_goals exact ⟨hpasses, new, hdone, hempty, by simp [followRun]⟩

theorem carries_each (items : List α) {body : α → Call σ Unit} {bytes : α → Bytes}
    (h : ∀ item ∈ items, Carries view (body item) (bytes item) fun _ => []) :
    Carries view (each items body) (items.flatMap bytes) fun _ => [] := by
  induction items with
  | nil => exact (quiet_pure ()).carries []
  | cons item items ih =>
    have hfirst := (h item List.mem_cons_self).append (items.flatMap bytes)
    have hrest := ih fun other hother => h other (List.mem_cons_of_mem _ hother)
    have hboth := carries_bind hfirst fun _ => hrest
    intro horizon now s hs hpending
    have hrun : (each (item :: items) body).run horizon now s =
        (body item >>= fun _ => each items body).run horizon now s := by
      rw [bind_run]
      simp only [each, eachRun, followRun]
      rcases (body item).run horizon now s with ⟨_ | _ | _ | _, _, _⟩ <;> rfl
    rw [hrun]
    exact hboth horizon now s hs hpending

/-- However many rounds there are, what a round leaves over is what the next one begins with. -/
theorem carries_repeatFor {rounds : Nat} {body : Bytes → Call σ (Bytes ⊕ Unit)} {data : Bytes}
    (h : ∀ data, Carries view (body data) data (Sum.elim id fun _ => [])) :
    Carries view (repeatFor rounds data body) data fun _ => [] := by
  induction rounds generalizing data with
  | zero =>
    intro horizon now s hs hpending
    exact ⟨hs, [], by simp [repeatFor, repeatRun], by simp [repeatFor, repeatRun, hpending],
      by simp [repeatFor, repeatRun]⟩
  | succ rounds ih =>
    let next : Bytes ⊕ Unit → Call σ Unit := fun r => r.elim (repeatFor rounds · body) pure
    have hboth : Carries view (body data >>= next) data fun _ => [] := by
      refine carries_bind (h data) fun r => ?_
      cases r with
      | inl rest => exact ih
      | inr _ => exact (quiet_pure ()).carries []
    intro horizon now s hs hpending
    have hrun : (repeatFor (rounds + 1) data body).run horizon now s =
        (body data >>= next).run horizon now s := by
      rw [bind_run]
      simp only [repeatFor, repeatRun, followRun]
      rcases (body data).run horizon now s with ⟨(_ | _) | _ | _ | _, _, _⟩ <;> rfl
    rw [hrun]
    exact hboth horizon now s hs hpending

theorem carries_inner {call : Call σ α} {data : Bytes} {left : α → Bytes}
    (h : Carries view call data left) : Carries (view.behind τ) (inner call) data left :=
  fun horizon now s hs hpending => h horizon now s.2 hs hpending

theorem flushes_inner {call : Call σ Unit} (h : Flushes view call) :
    Flushes (view.behind τ) (inner call) :=
  fun horizon now s hs hpending => h horizon now s.2 hs hpending

/-! ## Calls that do not succeed -/

theorem refuses_fail (fault : Fault) : Refuses view (fail fault : Call σ α) :=
  ⟨quiet_fail fault, by simp [fail, finish]⟩

theorem Quiet.bind_refuses {first : Call σ α} {next : α → Call σ β} (hfirst : Quiet view first)
    (hnext : ∀ a, Refuses view (next a)) : Refuses view (first >>= next) := by
  refine ⟨quiet_bind hfirst fun a => (hnext a).1, fun horizon now s b => ?_⟩
  rw [bind_run]
  rcases first.run horizon now s with ⟨a | _ | _ | _, time, s'⟩
  · exact (hnext a).2 horizon time s' b
  all_goals simp [followRun]

theorem Refuses.carries {call : Call σ α} (h : Refuses view call) (data : Bytes) (left : α → Bytes) :
    Carries view call data left := by
  intro horizon now s hs hpending
  obtain ⟨hpasses, htrace⟩ := h.1 horizon now s hs
  refine ⟨hpasses, [], ?_, ?_, fun a ha => absurd ha (h.2 horizon now s a)⟩
  · rw [htrace, List.append_nil]
  · simp [htrace, hpending]

theorem Refuses.flushes {call : Call σ Unit} (h : Refuses view call) : Flushes view call := by
  intro horizon now s hs hpending
  obtain ⟨hpasses, htrace⟩ := h.1 horizon now s hs
  refine ⟨hpasses, [], ?_, ?_, fun ha => absurd ha (h.2 horizon now s ())⟩
  · rw [htrace, List.append_nil]
  · simp [htrace, hpending]

/-- What a call has carried when it is broken off stays; nothing is added to it then. -/
theorem carries_within {deadline : Nat} {call late : Call σ α} {data : Bytes} {left : α → Bytes}
    (hcall : Carries view call data left) (hlate : Refuses view late) :
    Carries view (within deadline call late) data left := by
  intro horizon now s hs hpending
  obtain ⟨hpasses, new, hdone, hprefix, hok⟩ :=
    hcall (some (earlier (Clock.roundUp deadline) horizon)) now s hs hpending
  simp only [within]
  revert hpasses hdone hprefix hok
  rcases call.run (some (earlier (Clock.roundUp deadline) horizon)) now s with
    ⟨a | _ | _ | _, time, s'⟩ <;> intro hpasses hdone hprefix hok
  · exact ⟨hpasses, new, hdone, hprefix, hok⟩
  · exact ⟨hpasses, new, hdone, hprefix, hok⟩
  · simp only [withinRun]
    split
    · obtain ⟨hpasses', htrace⟩ := hlate.1 horizon time s' hpasses
      refine ⟨hpasses', new, ?_, ?_, fun a ha => absurd ha (hlate.2 horizon time s' a)⟩
      · rw [htrace]
        exact hdone
      · rw [htrace]
        exact hprefix
    · exact ⟨hpasses, new, hdone, hprefix, hok⟩
  · exact ⟨hpasses, new, hdone, hprefix, hok⟩

end Call

end TrafficPolicy.Stream
