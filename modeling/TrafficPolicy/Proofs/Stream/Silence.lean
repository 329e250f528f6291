import TrafficPolicy.Proofs.Stream.Actions
import TrafficPolicy.Proofs.Stream.Manners
import TrafficPolicy.Stream.Shape

/-!
# Silence after a reset

Some stages are shut when one of them has broken the connection off. Until then the stages have asked the sink
for no reset, unless the caller has, and from then on they ask it for nothing else. Which stage it is makes no
difference: a stage in front of one that is shut is refused by it, and a stage behind one that is shut is not
asked for anything.
-/

namespace TrafficPolicy

namespace Stream

variable {σ : Type} {n : Nat}

def Nest.IsShut (n : Nat) (s : Nest σ n) : Prop := ∃ stage ∈ Nest.stages n s, stage.IsShut

theorem Nest.isShut_cons {a : Stage} {s : Nest σ n} :
    Nest.IsShut (n + 1) (a, s) ↔ a.IsShut ∨ Nest.IsShut n s := by
  show (∃ stage ∈ a :: Nest.stages n s, stage.IsShut) ↔ _
  simp only [List.mem_cons, exists_eq_or_imp]
  rfl

/-- After a reset there are only resets. -/
def Silent (actions : List Action) : Prop :=
  actions.Pairwise fun earlier later => earlier = .reset → later = .reset

theorem Silent.of_resets {actions : List Action} (h : ∀ a ∈ actions, a = .reset) : Silent actions :=
  List.pairwise_of_forall_mem_list fun _ _ later hlater _ => h later hlater

theorem Silent.after_reset {actions before after : List Action} (h : Silent actions)
    (hsplit : actions = before ++ .reset :: after) : ∀ a ∈ after, a = .reset := by
  rw [Silent, hsplit, List.pairwise_append, List.pairwise_cons] at h
  intro a ha
  exact h.2.1.1 a ha rfl

/-- What writes and flushes make the stages ask the sink for. -/
structure Hushed (s t : Nest (List Action × σ) n) (new : List Action) : Prop where
  actions : Nest.actions n t = Nest.actions n s ++ new
  silent : Silent new
  shut : Nest.IsShut n s → Nest.IsShut n t ∧ ∀ a ∈ new, a = .reset
  reset : .reset ∈ new → Nest.IsShut n t

structure Resets (s t : Nest (List Action × σ) n) (new : List Action) : Prop where
  actions : Nest.actions n t = Nest.actions n s ++ new
  shut : Nest.IsShut n s → Nest.IsShut n t
  reset : ∀ a ∈ new, a = .reset

theorem Hushed.trans {s t u : Nest (List Action × σ) n} {new later : List Action} (h : Hushed s t new)
    (h' : Hushed t u later) : Hushed s u (new ++ later) where
  actions := by rw [h'.actions, h.actions, List.append_assoc]
  silent := by
    apply List.pairwise_append.mpr
    refine ⟨h.silent, h'.silent, ?_⟩
    -- A reset among the earlier actions has shut a stage, and then the later ones are resets.
    intro a ha b hb hreset
    have hshut : Nest.IsShut n t := h.reset (hreset ▸ ha)
    exact (h'.shut hshut).2 b hb
  shut hs := by
    obtain ⟨ht, hnew⟩ := h.shut hs
    obtain ⟨hu, hlater⟩ := h'.shut ht
    exact ⟨hu, fun a ha => (List.mem_append.mp ha).elim (hnew a) (hlater a)⟩
  reset ha := by
    rcases List.mem_append.mp ha with hnew | hlater
    · exact (h'.shut (h.reset hnew)).1
    · exact h'.reset hlater

theorem Resets.trans {s t u : Nest (List Action × σ) n} {new later : List Action} (h : Resets s t new)
    (h' : Resets t u later) : Resets s u (new ++ later) where
  actions := by rw [h'.actions, h.actions, List.append_assoc]
  shut hs := h'.shut (h.shut hs)
  reset a ha := (List.mem_append.mp ha).elim (h.reset a) (h'.reset a)

theorem Hushed.nothing {s t : Nest (List Action × σ) n} (hactions : Nest.actions n t = Nest.actions n s)
    (hshut : Nest.IsShut n s → Nest.IsShut n t) : Hushed s t [] where
  actions := by rw [hactions, List.append_nil]
  silent := List.Pairwise.nil
  shut hs := ⟨hshut hs, nofun⟩
  reset := nofun

theorem Hushed.behind {a b : Stage} {s t : Nest (List Action × σ) n} {new : List Action} (h : Hushed s t new)
    (ha : ¬a.IsShut) : Hushed (n := n + 1) (a, s) (b, t) new where
  actions := h.actions
  silent := h.silent
  shut hs := by
    have hinner : Nest.IsShut n s := (Nest.isShut_cons.mp hs).resolve_left ha
    obtain ⟨ht, hnew⟩ := h.shut hinner
    exact ⟨Nest.isShut_cons.mpr (.inr ht), hnew⟩
  reset hmem := Nest.isShut_cons.mpr (.inr (h.reset hmem))

/-- A stage that breaks the connection off is shut from then on. -/
theorem Resets.hushed {a b : Stage} {s t : Nest (List Action × σ) n} {new : List Action} (h : Resets s t new)
    (hb : b.IsShut) : Hushed (n := n + 1) (a, s) (b, t) new where
  actions := h.actions
  silent := .of_resets h.reset
  shut _ := ⟨Nest.isShut_cons.mpr (.inl hb), h.reset⟩
  reset _ := Nest.isShut_cons.mpr (.inl hb)

theorem Resets.behind {a b : Stage} {s t : Nest (List Action × σ) n} {new : List Action} (h : Resets s t new)
    (hkeep : a.IsShut → b.IsShut) : Resets (n := n + 1) (a, s) (b, t) new where
  actions := h.actions
  shut hs := Nest.isShut_cons.mpr ((Nest.isShut_cons.mp hs).imp hkeep h.shut)
  reset := h.reset

/-! ## The manners of silence -/

def Course.hushed (σ : Type) (n : Nat) : Course (Nest (List Action × σ) n) where
  rel _ s _ t := ∃ new, Hushed s t new
  refl _ _ := ⟨[], .nothing rfl id⟩
  trans := fun ⟨new, h⟩ ⟨later, h'⟩ => ⟨new ++ later, h.trans h'⟩

def Course.resets (σ : Type) (n : Nat) : Course (Nest (List Action × σ) n) where
  rel _ s _ t := ∃ new, Resets s t new
  refl _ _ := ⟨[], (List.append_nil _).symm, id, nofun⟩
  trans := fun ⟨new, h⟩ ⟨later, h'⟩ => ⟨new ++ later, h.trans h'⟩

def Manners.silence (σ : Type) (n : Nat) : Manners (Nest (List Action × σ) n) where
  write := .hushed σ n
  flush := .hushed σ n
  reset := .resets σ n
  waits _ _ := ⟨[], .nothing rfl id⟩
  write_of_flush h := h

theorem Manners.silence_through (σ : Type) (n : Nat) : (silence σ (n + 1)).Through (silence σ n) where
  write := fun ha _ ⟨new, h⟩ => ⟨new, h.behind ha⟩
  flush := fun ha _ ⟨new, h⟩ => ⟨new, h.behind ha⟩
  shut := fun _ hb ⟨new, h⟩ => ⟨new, h.hushed hb⟩
  reset := fun _ hkeep ⟨new, h⟩ => ⟨new, h.behind hkeep⟩

theorem Sink.obeys_silence (inner : Sink σ) : inner.logged.Obeys (Manners.silence σ 0) where
  write data horizon now s := by
    refine ⟨[.write data], rfl, List.pairwise_singleton _ _, ?_, ?_⟩
    · rintro ⟨stage, hmem, -⟩
      cases hmem
    · simp
  flush horizon now s := by
    refine ⟨[.flush], rfl, List.pairwise_singleton _ _, ?_, ?_⟩
    · rintro ⟨stage, hmem, -⟩
      cases hmem
    · simp
  reset horizon now s := by
    refine ⟨[.reset], rfl, id, ?_⟩
    simp

theorem silent_session (stages : List Stage) (inner : Sink σ) (now : Nat) (s : σ) (pushes : List (Nat × Push)) :
    Silent (Nest.actions _ (session stages inner now s pushes).state) := by
  have hobeys : (inner.logged.behind stages.length).Obeys (Manners.silence σ stages.length) :=
    obeys_behind inner.obeys_silence (Manners.silence_through σ) stages.length
  obtain ⟨new, h⟩ := hobeys.pushOn pushes now (Nest.fresh stages s)
  have hactions : Nest.actions _ (session stages inner now s pushes).state = new := by
    rw [session, h.actions, Nest.actions_fresh, List.nil_append]
  rw [hactions]
  exact h.silent

end Stream

open TrafficPolicy.Stream

namespace UrlPolicy

/-- Once a sink behind the stages of a policy has been reset, it is never asked for a write or a flush again,
however a caller that only writes and flushes goes on. -/
theorem only_resets_after_reset {σ : Type} (p : UrlPolicy) (dropping : Bool) (draws : Draws) (inner : Sink σ)
    (now : Nat) (s : σ) (pushes : List (Nat × Push)) {before after : List Action}
    (h : Nest.actions _ (session (p.stages dropping now draws) inner now s pushes).state =
      before ++ .reset :: after) : ∀ a ∈ after, a = .reset :=
  (silent_session _ inner now s pushes).after_reset h

private def twoLimits : UrlPolicy where
  rule := { slots := { delay := some { kind := .timeout, seconds := 2.0 },
                       body := some { kind := .timeout, body := true, seconds := 1.0 } } }

/-- Both limits break the connection off, one after the other, and nothing but resets comes after the first. -/
theorem only_resets_after_both_limits :
    Nest.actions _ (session (twoLimits.stages false 0 ⟨0.0, 0.0⟩) (recorder true {}) 0 {}
      [(0, .write [1]), (1500000000, .write [2]), (0, .flush), (1000000000, .flush)]).state =
        [.write [1]] ++ .reset :: [.reset] ∧
      ∀ a ∈ [Action.reset], a = .reset := by
  have hactions : Nest.actions _ (session (twoLimits.stages false 0 ⟨0.0, 0.0⟩) (recorder true {}) 0 {}
      [(0, .write [1]), (1500000000, .write [2]), (0, .flush), (1000000000, .flush)]).state =
        [.write [1]] ++ .reset :: [.reset] := by decide +kernel
  exact ⟨hactions, only_resets_after_reset twoLimits false ⟨0.0, 0.0⟩ (recorder true {}) 0 {} _ hactions⟩

end UrlPolicy

end TrafficPolicy
