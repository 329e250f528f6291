import TrafficPolicy.Proofs.Stream.Limit
import TrafficPolicy.Proofs.Stream.Whole

/-!
# Handing on pieces

Over a sink that never fails a framer hands each write on in its pieces, with a flush after each of them. What each
write keeps of the framer and of what has been handed on, a caller keeps.
-/

namespace TrafficPolicy.Stream

open Call

variable {σ τ α β : Type} {inner : Sink σ} {horizon : Option Nat}

/-! ## Sinks that never fail -/

theorem Call.bind_run_of_ok {first : Call σ α} {next : α → Call σ β} {now time : Nat} {s t : σ} {a : α}
    (h : first.run horizon now s = ⟨.ok a, time, t⟩) :
    (first >>= next).run horizon now s = (next a).run horizon time t := by
  rw [bind_run, h]
  rfl

namespace Sink

/-- Writes and flushes succeed, and may take time. -/
structure Reliable (sink : Sink σ) (horizon : Option Nat) : Prop where
  write : ∀ data now s, ∃ time next, (sink.write data).run horizon now s = ⟨.ok (), time, next⟩
  flush : ∀ now s, ∃ time next, sink.flush.run horizon now s = ⟨.ok (), time, next⟩

theorem Prompt.reliable (h : inner.Prompt) (horizon : Option Nat) : inner.Reliable horizon where
  write data now s := ⟨now, h.write data horizon now s⟩
  flush now s := ⟨now, h.flush horizon now s⟩

theorem logging_run (action : Action) {call : Call σ Unit} {now time : Nat} {s t : σ} (log : List Action)
    (h : call.run horizon now s = ⟨.ok (), time, t⟩) :
    (logging action call).run horizon now (log, s) = ⟨.ok (), time, (log ++ [action], t)⟩ := by
  have hrun : (logging action call).run horizon now (log, s) =
      (Call.inner call).run horizon now (log ++ [action], s) := rfl
  rw [hrun, Call.inner]
  simp only [h]

/-- A piece that is handed on with a flush behind it. -/
theorem handOn_run {piece : Bytes} {now middle time : Nat} {s t u : σ} (own : τ) (log : List Action)
    (hwrite : (inner.write piece).run horizon now s = ⟨.ok (), middle, t⟩)
    (hflush : inner.flush.run horizon middle t = ⟨.ok (), time, u⟩) (next : Unit → Call (τ × List Action × σ) β) :
    (Call.inner (inner.logged.write piece) >>= fun _ => Call.inner inner.logged.flush >>= next).run horizon now
        (own, log, s) =
      (next ()).run horizon time (own, log ++ [.write piece, .flush], u) := by
  have hfirst : (Call.inner (inner.logged.write piece)).run horizon now (own, log, s) =
      ⟨.ok (), middle, (own, log ++ [.write piece], t)⟩ := by
    rw [Call.inner, Sink.logged]
    simp only [logging_run _ log hwrite]
  have hsecond : (Call.inner inner.logged.flush).run horizon middle (own, log ++ [.write piece], t) =
      ⟨.ok (), time, (own, log ++ [.write piece] ++ [.flush], u)⟩ := by
    rw [Call.inner, Sink.logged]
    simp only [logging_run _ _ hflush]
  rw [bind_run_of_ok hfirst, bind_run_of_ok hsecond, List.append_assoc]
  rfl

end Sink

def sent (pieces : List Bytes) : List Action := pieces.flatMap fun piece => [.write piece, .flush]

/-! ## What a framer does -/

namespace Framer

def after (f : Framer) (data : Bytes) : Framer := ((f.pieces data).getLast?.map Piece.after).getD f

theorem flatten_cut (f : Framer) (data : Bytes) : (f.cut data).flatten = data := by
  rw [cut, ← List.flatMap_def]
  exact f.flatMap_pieces data

theorem exists_send (h : inner.Reliable horizon) (piece : Piece) (now : Nat) (f : Framer) (log : List Action) (s : σ) :
    ∃ time t, (send inner.logged piece).run horizon now (f, log, s) =
      ⟨.ok (), time, (piece.after, log ++ [.write piece.bytes, .flush], t)⟩ := by
  obtain ⟨middle, t, hwrite⟩ := h.write piece.bytes now s
  obtain ⟨time, u, hflush⟩ := h.flush middle t
  refine ⟨time, u, ?_⟩
  have hrun : (send inner.logged piece).run horizon now (f, log, s) =
      (Call.inner (inner.logged.write piece.bytes) >>= fun _ => Call.inner inner.logged.flush >>= fun _ =>
        setOwn piece.after).run horizon now (piece.before, log, s) := rfl
  rw [hrun, Sink.handOn_run _ _ hwrite hflush]
  rfl

theorem exists_sends (h : inner.Reliable horizon) (pieces : List Piece) (now : Nat) (f : Framer) (log : List Action)
    (s : σ) : ∃ time t, eachRun (send inner.logged) horizon pieces now (f, log, s) =
      ⟨.ok (), time, ((pieces.getLast?.map Piece.after).getD f, log ++ sent (pieces.map Piece.bytes), t)⟩ := by
  induction pieces generalizing now f log s with
  | nil => exact ⟨now, s, by simp [eachRun, sent]⟩
  | cons piece pieces ih =>
    obtain ⟨middle, t, hfirst⟩ := exists_send h piece now f log s
    obtain ⟨time, u, hrest⟩ := ih middle piece.after (log ++ [.write piece.bytes, .flush]) t
    refine ⟨time, u, ?_⟩
    have hlast : ((piece :: pieces).getLast?.map Piece.after).getD f =
        (pieces.getLast?.map Piece.after).getD piece.after := by
      rw [List.getLast?_cons]
      cases pieces.getLast? <;> rfl
    simp only [eachRun, hfirst, hrest, hlast, sent, List.map_cons, List.flatMap_cons, List.append_assoc]

/-- Over a sink that never fails a write ends well, and hands on its pieces, each followed by one flush. -/
theorem exists_write (h : inner.Reliable horizon) (now : Nat) (f : Framer) (log : List Action) (s : σ) (data : Bytes) :
    ∃ time t, ((sink inner.logged).write data).run horizon now (f, log, s) =
      ⟨.ok (), time, (f.after data, log ++ sent (f.cut data), t)⟩ :=
  exists_sends h (f.pieces data) now f log s

/-- What every write keeps of the framer and the log, a caller keeps. -/
theorem pushAll_induct (h : inner.Reliable horizon) {I : Nat → Framer → List Action → Prop}
    (hwrite : ∀ n f log data, I n f log → I (n + data.length) (f.after data) (log ++ sent (f.cut data)))
    (hflush : ∀ n f log, I n f log → I n f (log ++ [.flush])) (pushes : List (Nat × Push)) (now : Nat) {n : Nat}
    {f : Framer} {log : List Action} (hstart : I n f log) (s : σ) :
    ∃ time f' log' t, (sink inner.logged).pushAll horizon pushes now (f, log, s) =
      ⟨.ok (), time, (f', log', t)⟩ ∧ I (n + (given pushes).length) f' log' := by
  induction pushes generalizing now n f log s with
  | nil => exact ⟨now, f, log, s, rfl, hstart⟩
  | cons entry pushes ih =>
    obtain ⟨wait, push⟩ := entry
    have hgiven : given ((wait, push) :: pushes) = push.bytes ++ given pushes := rfl
    rw [hgiven, List.length_append, ← Nat.add_assoc]
    cases push with
    | write data =>
      obtain ⟨middle, t, hrun⟩ := exists_write h (now + wait) f log s data
      obtain ⟨time, f', log', u, hrest, hend⟩ := ih middle (hwrite n f log data hstart) t
      refine ⟨time, f', log', u, ?_, hend⟩
      simp only [Sink.pushAll, Sink.push, hrun, hrest]
    | flush =>
      obtain ⟨middle, t, hrun⟩ := h.flush (now + wait) s
      obtain ⟨time, f', log', u, hrest, hend⟩ := ih middle (hflush n f log hstart) t
      refine ⟨time, f', log', u, ?_, hend⟩
      have hrun' : ((sink inner.logged).flush).run horizon (now + wait) (f, log, s) =
          ⟨.ok (), middle, (f, log ++ [.flush], t)⟩ := by
        simp only [sink, Call.inner, Sink.logged, Sink.logging_run _ log hrun]
      simp only [Sink.pushAll, Sink.push, hrun', hrest]

end Framer

end TrafficPolicy.Stream
