import TrafficPolicy.Proofs.Stream.Actions
import TrafficPolicy.Proofs.Stream.Manners
import TrafficPolicy.Proofs.Stream.Shape
import TrafficPolicy.Stream.Shape

/-!
# Writes that may not be cut

Some sinks want each write in one piece. A pause, a deadline and a meter then pass a write that succeeds on as
it is; a framer cuts it in spite of that. So a write comes out whole just if no framer is on its way, or the
one that is there makes one piece of it.
-/

namespace TrafficPolicy

namespace Stream

open Call

variable {σ α β : Type} {n : Nat}

/-! ## The writes among what a sink is asked to do -/

def Action.bytes? : Action → Option Bytes
  | .write bytes => some bytes
  | _ => none

def Nest.writes (n : Nat) (s : Nest (List Action × σ) n) : List Bytes := (actions n s).filterMap Action.bytes?

def Nest.kinds (n : Nat) (s : Nest σ n) : List Stage.Kind := (stages n s).map Stage.kind

theorem Nest.kinds_cons {a b : Stage} {s t : Nest σ n} (hkind : a.kind = b.kind) (h : kinds n t = kinds n s) :
    kinds (n + 1) (b, t) = kinds (n + 1) (a, s) := by
  show b.kind :: kinds n t = a.kind :: kinds n s
  rw [hkind, h]

def Course.kept (f : σ → β) : Course σ where
  rel _ s _ t := f t = f s
  refl _ _ := rfl
  trans h h' := h'.trans h

/-- The manners of a sink behind stages that keep their kinds: only writes bring writes. -/
def Manners.plain (σ : Type) (n : Nat) : Manners (Nest (List Action × σ) n) where
  write := .kept (Nest.kinds n)
  flush := .kept fun s => (Nest.kinds n s, Nest.writes n s)
  reset := .kept fun s => (Nest.kinds n s, Nest.writes n s)
  waits _ _ := rfl
  write_of_flush h := congrArg Prod.fst h

theorem Manners.plain_through (σ : Type) (n : Nat) : (plain σ (n + 1)).Through (plain σ n) where
  write _ hkind h := Nest.kinds_cons hkind h
  flush _ hkind h := Prod.ext (Nest.kinds_cons hkind (congrArg Prod.fst h)) (Prod.mk.inj h).2
  shut hkind _ h := Prod.ext (Nest.kinds_cons hkind (congrArg Prod.fst h)) (Prod.mk.inj h).2
  reset hkind _ h := Prod.ext (Nest.kinds_cons hkind (congrArg Prod.fst h)) (Prod.mk.inj h).2

theorem Sink.obeys_plain (inner : Sink σ) : inner.logged.Obeys (Manners.plain σ 0) where
  write _ _ _ _ := rfl
  flush _ _ _ := Prod.ext rfl (List.filterMap_append.trans (List.append_nil _))
  reset _ _ _ := Prod.ext rfl (List.filterMap_append.trans (List.append_nil _))

theorem obeys_plain_behind (inner : Sink σ) (n : Nat) : (inner.logged.behind n).Obeys (Manners.plain σ n) :=
  obeys_behind inner.obeys_plain (Manners.plain_through σ) n

/-! ## What a call that succeeds writes -/

/-- If a call succeeds, it adds some writes. -/
def Call.Puts (writes : σ → List Bytes) (call : Call σ α) (s : σ) (new : List Bytes) : Prop :=
  ∀ horizon now a, (call.run horizon now s).verdict = .ok a →
    writes (call.run horizon now s).state = writes s ++ new

theorem Call.ok_of_bind {first : Call σ α} {next : α → Call σ β} {horizon : Option Nat} {now : Nat} {s : σ} {b : β}
    (h : ((first >>= next).run horizon now s).verdict = .ok b) :
    ∃ a time t, first.run horizon now s = ⟨.ok a, time, t⟩ ∧
      (first >>= next).run horizon now s = (next a).run horizon time t := by
  rw [bind_run] at h ⊢
  revert h
  rcases first.run horizon now s with ⟨a | _ | _ | _, time, t⟩ <;> intro h
  · exact ⟨a, time, t, rfl, rfl⟩
  · cases h
  · cases h
  · cases h

variable {writes : σ → List Bytes} {inner : Sink σ} {s : σ} {data : Bytes} {new : List Bytes}

theorem Pause.puts_write (h : Puts writes (inner.write data) s new) (p : Pause) :
    Puts (fun s => writes s.2) ((sink inner).write data) (p, s) new := by
  intro horizon now a hok
  obtain ⟨_, time, t, hsettle, hrun⟩ := ok_of_bind hok
  have hstill := still_settle horizon now (p, s)
  rw [hsettle] at hstill
  obtain rfl : t.2 = s := hstill
  have hrun : ((sink inner).write data).run horizon now (p, t.2) = (Call.inner (inner.write data)).run horizon time t :=
    hrun
  rw [hrun] at hok ⊢
  exact h horizon time a hok

theorem Deadline.puts_write (hinner : inner.divisible = false) (h : Puts writes (inner.write data) s new)
    (d : Deadline) : Puts (fun s => writes s.2) ((sink inner).write data) (d, s) new := by
  intro horizon now a hok
  rw [write_run hinner] at hok ⊢
  split at hok
  · exact absurd hok ((expire_run inner horizon now d s).1 a)
  · rename_i hnot
    rw [if_neg hnot]
    rcases within_run d.time (Call.inner (inner.write data)) (expire inner) horizon now (d, s) with hrun | hrun
    · rw [hrun] at hok ⊢
      exact h _ now a hok
    · rw [hrun] at hok
      exact absurd hok ((expire_run inner horizon _ d _).1 a)

theorem Meter.puts_write (hinner : inner.divisible = false) (h : Puts writes (inner.write data) s new)
    (m : Meter) : Puts (fun s => writes s.2) ((sink inner).write data) (m, s) new := by
  intro horizon now a hok
  have hwhole : ((sink inner).write data).run horizon now (m, s) =
      (Call.inner (inner.write data) >>= fun _ => sleepUntil (now + m.hold data.length)).run horizon now (m, s) := by
    simp only [sink, hinner]
    rfl
  rw [hwhole] at hok ⊢
  obtain ⟨b, time, t, hwrite, hrun⟩ := ok_of_bind hok
  rw [hrun, sleepUntil_state]
  have hput := h horizon now b
  have hverdict : ((inner.write data).run horizon now s).verdict = .ok b := congrArg Ended.verdict hwrite
  have hstate : ((inner.write data).run horizon now s).state = t.2 := congrArg (fun e => e.state.2) hwrite
  rw [hstate] at hput
  exact hput hverdict

def Framer.cut (f : Framer) (data : Bytes) : List Bytes := (f.pieces data).map Piece.bytes

private theorem Framer.puts_send {piece : Piece} (hwrite : Puts writes (inner.write piece.bytes) s [piece.bytes])
    (hflush : ∀ horizon now t, writes (inner.flush.run horizon now t).state = writes t) (f : Framer) :
    Puts (fun s => writes s.2) (send inner piece) (f, s) [piece.bytes] := by
  intro horizon now a hok
  have hsend : (send inner piece).run horizon now (f, s) =
      (Call.inner (inner.write piece.bytes) >>= fun _ => Call.inner inner.flush >>= fun _ =>
        setOwn piece.after).run horizon now (piece.before, s) := rfl
  rw [hsend] at hok ⊢
  obtain ⟨b, time, t, hput, hrun⟩ := ok_of_bind hok
  rw [hrun] at hok ⊢
  obtain ⟨c, time', u, hsent, hrest⟩ := ok_of_bind hok
  rw [hrest]
  have hfirst : writes t.2 = writes s ++ [piece.bytes] := by
    have hstate : ((inner.write piece.bytes).run horizon now s).state = t.2 := congrArg (fun e => e.state.2) hput
    rw [← hstate]
    exact hwrite horizon now b (congrArg Ended.verdict hput)
  have hsecond : writes u.2 = writes t.2 := by
    have hstate : (inner.flush.run horizon time t.2).state = u.2 := congrArg (fun e => e.state.2) hsent
    rw [← hstate]
    exact hflush horizon time t.2
  exact hsecond.trans hfirst

/-- A framer cuts a write whether or not it may be cut. -/
theorem Framer.puts_write {ready : σ → Prop} (hwrite : ∀ data s, ready s → Puts writes (inner.write data) s [data])
    (hflush : ∀ horizon now t, writes (inner.flush.run horizon now t).state = writes t)
    (hready : ∀ piece horizon now s, ready s.2 → ready ((send inner piece).run horizon now s).state.2)
    (hs : ready s) (f : Framer) (data : Bytes) :
    Puts (fun s => writes s.2) ((sink inner).write data) (f, s) (f.cut data) := by
  intro horizon now a hok
  -- A piece that has been sent leaves a sink that is ready for the next one.
  have heach : ∀ (pieces : List Piece) now (s : Framer × σ), ready s.2 →
      (eachRun (send inner) horizon pieces now s).verdict = .ok a →
      writes (eachRun (send inner) horizon pieces now s).state.2 = writes s.2 ++ pieces.map Piece.bytes := by
    intro pieces
    induction pieces with
    | nil => exact fun now s _ _ => (List.append_nil _).symm
    | cons piece pieces ih =>
      intro now s hs hok
      have hput := puts_send (hwrite piece.bytes s.2 hs) hflush s.1 horizon now
      have hnext := hready piece horizon now s hs
      simp only [eachRun] at hok ⊢
      revert hput hnext hok
      rcases (send inner piece).run horizon now s with ⟨b | _ | _ | _, time, t⟩ <;> intro hok hput hnext
      · have hrest := ih time t hnext hok
        have hfirst : writes t.2 = writes s.2 ++ [piece.bytes] := hput b rfl
        rw [hrest, hfirst, List.map_cons, List.append_assoc, List.singleton_append]
      · cases hok
      · cases hok
      · cases hok
  exact heach (f.pieces data) now (f, s) hs hok

/-! ## Behind stages -/

def Stage.framer? : Stage → Option Framer
  | .framer f => some f
  | _ => none

/-- The first framer on the way of a write. -/
def Nest.framer? (n : Nat) (s : Nest σ n) : Option Framer := (stages n s).findSome? Stage.framer?

def Nest.cut (n : Nat) (s : Nest σ n) (data : Bytes) : List Bytes :=
  (framer? n s).elim [data] fun f => f.cut data

theorem Nest.framer?_eq_none {s : Nest σ n} (h : .framer ∉ kinds n s) : framer? n s = none := by
  apply List.findSome?_eq_none_iff.mpr
  intro stage hmem
  cases stage with
  | framer f => exact absurd (List.mem_map.mpr ⟨_, hmem, rfl⟩) h
  | _ => rfl

/-- Behind stages that do not discard and have one framer at the most, a write that may not be cut becomes the
pieces of that framer. -/
theorem puts_write_behind {inner : Sink σ} (hinner : inner.divisible = false) (n : Nat)
    {s : Nest (List Action × σ) n} (hdiscard : .discard ∉ Nest.kinds n s)
    (hone : (Nest.kinds n s).count .framer ≤ 1) (data : Bytes) :
    Puts (Nest.writes n) ((inner.logged.behind n).write data) s (Nest.cut n s data) := by
  induction n generalizing data with
  | zero =>
    intro horizon now a _
    exact List.filterMap_append
  | succ n ih =>
    obtain ⟨stage, s⟩ := s
    have hindivisible : (inner.logged.behind n).divisible = false := (inner.logged.divisible_behind n).trans hinner
    have hkinds : Nest.kinds (n + 1) (stage, s) = stage.kind :: Nest.kinds n s := rfl
    rw [hkinds] at hdiscard hone
    have hrest : .discard ∉ Nest.kinds n s := fun h => hdiscard (List.mem_cons_of_mem _ h)
    have hcount : (Nest.kinds n s).count .framer ≤ 1 := by
      rw [List.count_cons] at hone
      omega
    cases stage with
    | discard => exact absurd List.mem_cons_self hdiscard
    | pause p => exact fun horizon now a hok => Pause.puts_write (ih hrest hcount data) p horizon now a hok
    | deadline d =>
      exact fun horizon now a hok => Deadline.puts_write hindivisible (ih hrest hcount data) d horizon now a hok
    | meter m =>
      exact fun horizon now a hok => Meter.puts_write hindivisible (ih hrest hcount data) m horizon now a hok
    | framer f =>
      have hlast : .framer ∉ Nest.kinds n s := by
        apply List.count_eq_zero.mp
        rw [Stage.kind, List.count_cons_self] at hone
        omega
      have hobeys := obeys_plain_behind inner n
      -- Between the pieces the stages behind the framer keep their kinds, so that each piece comes out whole.
      have hwrite : ∀ data t, Nest.kinds n t = Nest.kinds n s →
          Puts (Nest.writes n) ((inner.logged.behind n).write data) t [data] := by
        intro data t ht
        have hput := ih (s := t) (ht ▸ hrest) (ht ▸ hcount) data
        rw [Nest.cut, Nest.framer?_eq_none (ht ▸ hlast)] at hput
        exact hput
      have hflush : ∀ horizon now t,
          Nest.writes n ((inner.logged.behind n).flush.run horizon now t).state = Nest.writes n t :=
        fun horizon now t => (Prod.mk.inj (hobeys.flush horizon now t)).2
      have hready : ∀ piece horizon now (t : Framer × Nest (List Action × σ) n), Nest.kinds n t.2 = Nest.kinds n s →
          Nest.kinds n ((Framer.send (inner.logged.behind n) piece).run horizon now t).state.2 = Nest.kinds n s :=
        fun piece horizon now t ht => (Framer.follows_send hobeys piece now t).trans ht
      exact fun horizon now a hok => Framer.puts_write hwrite hflush hready rfl f data horizon now a hok

theorem Nest.cut_eq_singleton_iff (n : Nat) (s : Nest σ n) (data : Bytes) :
    cut n s data = [data] ↔ ∀ f, framer? n s = some f → (f.pieces data).length = 1 := by
  unfold cut
  cases framer? n s with
  | none => exact ⟨fun _ => nofun, fun _ => rfl⟩
  | some f =>
    have hbytes : (f.pieces data).flatMap Piece.bytes = data := f.flatMap_pieces data
    constructor
    · intro h f' hf
      obtain rfl := Option.some.inj hf
      have hlength := congrArg List.length h
      rwa [Option.elim_some, Framer.cut, List.length_map] at hlength
    · intro h
      obtain ⟨piece, hpiece⟩ := List.length_eq_one_iff.mp (h f rfl)
      rw [Option.elim_some, Framer.cut, hpiece, List.map_singleton]
      rw [hpiece, List.flatMap_singleton] at hbytes
      rw [hbytes]

end Stream

open TrafficPolicy.Stream

namespace UrlPolicy

variable {σ : Type}

/-- The framers of a policy are those of its framing. -/
theorem count_framer_stages (p : UrlPolicy) (now : Nat) (draws : Draws) :
    ((p.stages false now draws).map Stage.kind).count .framer =
      (((p.get (.setting .chunked)).bind Framing.stage?).toList.map Stage.kind).count .framer := by
  have hdelay (slot : Option DelayPolicy) (factor : Float) :
      (((slot.bind fun d => d.stage? now factor).toList).map Stage.kind).count .framer = 0 := by
    apply List.count_eq_zero.mpr
    intro hmem
    obtain ⟨stage, hstage, hkind⟩ := List.mem_map.mp hmem
    obtain ⟨d, -, hd⟩ := Option.bind_eq_some_iff.mp (Option.mem_toList.mp hstage)
    unfold DelayPolicy.stage? at hd
    split at hd
    · cases hd
    all_goals
      obtain rfl := Option.some.inj hd
      cases hkind
  have hrate (slot : Option Float) :
      ((slot.map fun rate => Stage.meter (.starting now rate)).toList.map Stage.kind).count .framer = 0 := by
    cases slot <;> rfl
  simp only [stages, Bool.false_eq_true, if_false, List.nil_append, List.map_append, List.count_append, hdelay, hrate,
    Nat.zero_add, Nat.add_zero]

/-- What a caller finds after some calls behind the stages of a policy for a response that begins at `now`. -/
def found (p : UrlPolicy) (draws : Draws) (inner : Sink σ) (now : Nat) (s : σ) (pushes : List (Nat × Push)) :
    Nest (List Action × σ) (p.stages false now draws).length :=
  (session (p.stages false now draws) inner now s pushes).state

theorem kinds_found (p : UrlPolicy) (draws : Draws) (inner : Sink σ) (now : Nat) (s : σ)
    (pushes : List (Nat × Push)) :
    Nest.kinds _ (p.found draws inner now s pushes) = (p.stages false now draws).map Stage.kind := by
  have hkept := (obeys_plain_behind inner _).pushOn pushes now (Nest.fresh (p.stages false now draws) s)
  refine Eq.trans hkept ?_
  exact congrArg (List.map Stage.kind) (Nest.stages_ofStages (p.stages false now draws) ([], s))

def write (p : UrlPolicy) (draws : Draws) (inner : Sink σ) (now : Nat) (s : σ) (pushes : List (Nat × Push))
    (horizon : Option Nat) (later : Nat) (data : Bytes) :
    Ended (Nest (List Action × σ) (p.stages false now draws).length) Unit :=
  ((inner.logged.behind _).write data).run horizon later (p.found draws inner now s pushes)

section

variable {p : UrlPolicy} {draws : Draws} {inner : Sink σ} {now : Nat} {s : σ} {pushes : List (Nat × Push)}
  {horizon : Option Nat} {later : Nat} {data : Bytes}

theorem writes_of_write (hinner : inner.divisible = false)
    (hok : (p.write draws inner now s pushes horizon later data).verdict = .ok ()) :
    Nest.writes _ (p.write draws inner now s pushes horizon later data).state =
      Nest.writes _ (p.found draws inner now s pushes) ++ Nest.cut _ (p.found draws inner now s pushes) data := by
  have hkinds := p.kinds_found draws inner now s pushes
  have hdiscard : .discard ∉ Nest.kinds _ (p.found draws inner now s pushes) := by
    rw [hkinds]
    intro hmem
    obtain ⟨stage, hstage, hkind⟩ := List.mem_map.mp hmem
    cases stage with
    | discard => exact p.discard_not_mem_stages now draws hstage
    | _ => cases hkind
  have hone : (Nest.kinds _ (p.found draws inner now s pushes)).count .framer ≤ 1 := by
    rw [hkinds, count_framer_stages]
    refine Nat.le_trans List.count_le_length ?_
    rw [List.length_map]
    exact Option.length_toList_le
  exact puts_write_behind hinner _ hdiscard hone data horizon later () hok

theorem framer?_found (h : (p.get (.setting .chunked)).bind Framing.stage? = none) :
    Nest.framer? _ (p.found draws inner now s pushes) = none := by
  apply Nest.framer?_eq_none
  apply List.count_eq_zero.mp
  rw [kinds_found, count_framer_stages, h]
  rfl

/-- Behind the stages of a policy a write that may not be cut and succeeds comes out as it is, after whatever
calls, just if the framer that is then on its way makes one piece of it; there is none if the policy does not set
pieces. -/
theorem write_whole_iff (hinner : inner.divisible = false)
    (hok : (p.write draws inner now s pushes horizon later data).verdict = .ok ()) :
    (Nest.writes _ (p.write draws inner now s pushes horizon later data).state =
        Nest.writes _ (p.found draws inner now s pushes) ++ [data] ↔
      ∀ f, Nest.framer? _ (p.found draws inner now s pushes) = some f → (f.pieces data).length = 1) ∧
    ((p.get (.setting .chunked)).bind Framing.stage? = none →
      Nest.writes _ (p.write draws inner now s pushes horizon later data).state =
        Nest.writes _ (p.found draws inner now s pushes) ++ [data]) := by
  have hwrites := writes_of_write hinner hok
  have hiff : Nest.writes _ (p.write draws inner now s pushes horizon later data).state =
        Nest.writes _ (p.found draws inner now s pushes) ++ [data] ↔
      ∀ f, Nest.framer? _ (p.found draws inner now s pushes) = some f → (f.pieces data).length = 1 := by
    rw [hwrites, List.append_cancel_left_eq]
    exact Nest.cut_eq_singleton_iff _ _ data
  refine ⟨hiff, fun hframing => ?_⟩
  apply hiff.mpr
  intro f hf
  rw [framer?_found hframing] at hf
  cases hf

end

private def inTwo : UrlPolicy where
  rule := { slots := { delay := some { kind := .timeout, seconds := 1.0 }, chunked := some (.blocks 2) } }

/-- After one byte has been sent, the next byte is a piece of its own. -/
theorem write_whole_second_byte :
    (inTwo.write ⟨0.0, 0.0⟩ (recorder false {}) 0 {} [(0, .write [1])] none 0 [2]).verdict = .ok () ∧
      Nest.writes _ (inTwo.write ⟨0.0, 0.0⟩ (recorder false {}) 0 {} [(0, .write [1])] none 0 [2]).state =
        Nest.writes _ (inTwo.found ⟨0.0, 0.0⟩ (recorder false {}) 0 {} [(0, .write [1])]) ++ [[2]] := by
  have hok : (inTwo.write ⟨0.0, 0.0⟩ (recorder false {}) 0 {} [(0, .write [1])] none 0 [2]).verdict = .ok () := by
    decide +kernel
  refine ⟨hok, (write_whole_iff rfl hok).1.mpr ?_⟩
  decide +kernel

/-- Two pieces are made of a write that may not be cut. -/
theorem not_write_whole_two_pieces :
    ¬∀ (p : UrlPolicy) (draws : Draws) (now : Nat) (pushes : List (Nat × Push)) (later : Nat) (data : Bytes),
      (p.write draws (recorder false {}) now {} pushes none later data).verdict = .ok () →
      Nest.writes _ (p.write draws (recorder false {}) now {} pushes none later data).state =
        Nest.writes _ (p.found draws (recorder false {}) now {} pushes) ++ [data] := by
  intro h
  have hwhole := h inTwo ⟨0.0, 0.0⟩ 0 [] 0 [1, 2] (by decide +kernel)
  exact absurd hwhole (by decide +kernel)

end UrlPolicy

end TrafficPolicy
