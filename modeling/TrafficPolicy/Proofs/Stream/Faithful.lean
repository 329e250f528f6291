import TrafficPolicy.Proofs.Stream.Carries
import TrafficPolicy.Stream.Stage

/-!
# Stages that lose nothing

A sink is faithful if a write through it carries its bytes, a flush comes out as one flush, and a reset as
neither. Each stage but the one that discards is faithful if what is behind it is.
-/

namespace TrafficPolicy.Stream

open Call

variable {σ : Type} {view : View σ} {inner : Sink σ}

structure Faithful (view : View σ) (sink : Sink σ) : Prop where
  write : ∀ data, Carries view (sink.write data) data fun _ => []
  flush : Flushes view sink.flush
  reset : Quiet view sink.reset

/-! ## The traced sink -/

namespace Sink

def tracedView (σ : Type) : View (Trace × σ) := ⟨fun _ => True, Prod.fst⟩

private theorem tracing_run (push : Push) (call : Call σ Unit) (horizon : Option Nat) (now : Nat)
    (s : Trace × σ) :
    (tracing push call).run horizon now s =
      match call.run horizon now s.2 with
      | ⟨.ok _, time, inner⟩ => ⟨.ok (), time, (s.1.enter push).leave push, inner⟩
      | ⟨.failed fault, time, inner⟩ => ⟨.failed fault, time, s.1.enter push, inner⟩
      | ⟨.cut, time, inner⟩ => ⟨.cut, time, s.1.enter push, inner⟩
      | ⟨.endless, time, inner⟩ => ⟨.endless, time, s.1.enter push, inner⟩ := by
  simp only [tracing, bind_run, own, Call.state, followRun, setOwn, Call.modify, finish,
    Call.inner, pure, give, id_eq]
  rcases call.run horizon now s.2 with ⟨_ | _ | _ | _, time, inner⟩ <;> rfl

theorem faithful_traced (inner : Sink σ) : Faithful (tracedView σ) inner.traced where
  write data := by
    intro horizon now s _ _
    refine ⟨trivial, ?_⟩
    simp only [traced, tracing_run, tracedView]
    rcases (inner.write data).run horizon now s.2 with ⟨_ | _ | _ | _, time, inner⟩
    · exact ⟨[.write data], rfl, by simp [Trace.leave, Push.bytes], by simp [Trace.leave, Push.bytes]⟩
    all_goals exact ⟨[], by simp [Trace.enter], by simp [Trace.enter, Push.bytes], by simp⟩
  flush := by
    intro horizon now s _ _
    refine ⟨trivial, ?_⟩
    simp only [traced, tracing_run, tracedView]
    rcases inner.flush.run horizon now s.2 with ⟨_ | _ | _ | _, time, inner⟩
    · exact ⟨[.flush], rfl, by simp [Trace.leave, Push.bytes], by simp [Trace.leave]⟩
    all_goals exact ⟨[], by simp [Trace.enter], by simp [Trace.enter, Push.bytes], by simp⟩
  reset := fun _ _ _ h => ⟨h, rfl⟩

end Sink

/-! ## A wait -/

namespace Pause

private theorem quiet_settle : Quiet (view.behind Pause) settle := by
  unfold settle
  refine quiet_bind quiet_own fun pause => ?_
  split
  · split
    · exact quiet_bind (quiet_setOwn _) fun _ => quiet_sleep _
    · exact quiet_pure ()
  · exact quiet_pure ()

theorem faithful_sink (h : Faithful view inner) : Faithful (view.behind Pause) (sink inner) where
  write data := quiet_settle.bind_carries fun _ => carries_inner (h.write data)
  flush := by
    refine quiet_settle.bind_flushes fun _ => (flushes_inner h.flush).bind_quiet fun _ => ?_
    exact quiet_bind quiet_own fun _ => quiet_setOwn _
  reset := quiet_inner h.reset

end Pause

/-! ## A limit to the time -/

namespace Deadline

private theorem flatMap_slices (data : Bytes) : ((slices data).flatMap fun slice => slice) = data := by
  fun_induction slices data with
  | case1 => rfl
  | case2 data _ _ ih =>
    rw [List.flatMap_cons, ih]
    exact List.take_append_drop _ _

private theorem refuses_expire {α : Type} (h : Faithful view inner) :
    Refuses (view.behind Deadline) (expire inner : Call (Deadline × σ) α) := by
  unfold expire
  refine quiet_own.bind_refuses fun d => ?_
  split
  · refine (quiet_setOwn _).bind_refuses fun _ => ?_
    refine (quiet_attempt (quiet_inner h.reset)).bind_refuses fun _ => ?_
    exact refuses_fail _
  · exact refuses_fail _

private theorem carries_writeSlice (h : Faithful view inner) (slice : Bytes) :
    Carries (view.behind Deadline) (writeSlice inner slice) slice fun _ => [] := by
  unfold writeSlice
  refine quiet_own.bind_carries fun d => quiet_now.bind_carries fun now => ?_
  split
  · exact (refuses_expire h).carries slice _
  · exact carries_within (carries_inner (h.write slice)) (refuses_expire h)

theorem faithful_sink (h : Faithful view inner) : Faithful (view.behind Deadline) (sink inner) where
  write data := by
    simp only [sink]
    split
    · have heach := carries_each (slices data) fun slice _ => carries_writeSlice h slice
      rw [flatMap_slices] at heach
      exact heach
    · exact carries_writeSlice h data
  flush := by
    refine quiet_own.bind_flushes fun d => quiet_now.bind_flushes fun now => ?_
    split
    · exact (refuses_expire h).flushes
    · exact flushes_inner h.flush
  reset := quiet_bind quiet_own fun _ => quiet_bind (quiet_setOwn _) fun _ => quiet_inner h.reset

end Deadline

/-! ## Pieces -/

namespace Framer

private theorem flatMap_blockPieces {count total written : Nat} {data : Bytes} (hc : 0 < count)
    (h : written + data.length = total) :
    (blockPieces count total written data hc h).flatMap Piece.bytes = data := by
  fun_induction blockPieces count total written data hc h with
  | case1 => rfl
  | case2 =>
    rename_i ih
    rw [List.flatMap_cons, ih]
    exact List.take_append_drop _ _

private theorem flatMap_sizePieces (sizes : PieceSizes) (data : Bytes) :
    (sizePieces sizes data).flatMap Piece.bytes = data := by
  fun_induction sizePieces sizes data with
  | case1 => rfl
  | case2 => exact List.append_nil _
  | case3 =>
    rename_i ih
    rw [List.flatMap_cons, ih]
    exact List.take_append_drop _ _

/-- The pieces of a write are the write. -/
theorem flatMap_pieces (framer : Framer) (data : Bytes) : (framer.pieces data).flatMap Piece.bytes = data := by
  cases framer with
  | blocks count written =>
    simp only [pieces]
    split
    · exact flatMap_blockPieces _ _
    · simp
  | sizes upcoming => exact flatMap_sizePieces upcoming data

private theorem carries_send (h : Faithful view inner) (piece : Piece) :
    Carries (view.behind Framer) (send inner piece) piece.bytes fun _ => [] := by
  refine (quiet_setOwn _).bind_carries fun _ => ?_
  refine carries_bind (carries_inner (h.write piece.bytes)) fun _ => ?_
  exact carries_bind ((flushes_inner h.flush).carries []) fun _ => (quiet_setOwn _).carries []

theorem faithful_sink (h : Faithful view inner) : Faithful (view.behind Framer) (sink inner) where
  write data := by
    intro horizon now s hs hpending
    have heach := carries_each (s.1.pieces data) fun piece _ => carries_send h piece
    rw [flatMap_pieces] at heach
    exact heach horizon now s hs hpending
  flush := flushes_inner h.flush
  reset := quiet_inner h.reset

end Framer

/-! ## A limit to the rate -/

namespace Meter

private theorem carries_round (h : Faithful view inner) (rest : Bytes) :
    Carries (view.behind Meter) (round inner rest) rest (Sum.elim id fun _ => []) := by
  unfold round
  split
  · rename_i hempty
    rw [List.isEmpty_iff.mp hempty]
    exact carries_pure rfl
  · refine quiet_now.bind_carries fun now => quiet_own.bind_carries fun meter => ?_
    refine (quiet_setOwn _).bind_carries fun _ => ?_
    dsimp only
    split
    · refine (quiet_sleep _).bind_carries fun _ => ?_
      exact carries_pure rfl
    · rename_i count _
      have hwrite := (carries_inner (τ := Meter) (h.write (rest.take count))).append (rest.drop count)
      rw [List.take_append_drop] at hwrite
      refine carries_bind hwrite fun _ => ?_
      refine carries_bind ((flushes_inner h.flush).carries _) fun _ => ?_
      exact (quiet_setOwn _).bind_carries fun _ => carries_pure rfl

theorem faithful_sink (h : Faithful view inner) : Faithful (view.behind Meter) (sink inner) where
  write data := by
    simp only [sink]
    split
    · refine quiet_own.bind_carries fun meter => quiet_horizon.bind_carries fun horizon => ?_
      exact carries_repeatFor (carries_round h)
    · refine quiet_now.bind_carries fun now => quiet_own.bind_carries fun meter => ?_
      exact carries_bind (carries_inner (h.write data)) fun _ => (quiet_sleepUntil _).carries []
  flush := flushes_inner h.flush
  reset := quiet_inner h.reset

end Meter

end TrafficPolicy.Stream
