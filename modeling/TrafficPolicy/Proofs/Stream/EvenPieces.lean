import Mathlib.Algebra.Order.Floor.Div
import TrafficPolicy.Proofs.Stream.Pieces

/-!
# Even pieces

A framer for a number of pieces divides the stream evenly, as long as it is when a write begins. The boundaries of
these pieces are at `total * k / count`; a write goes on from where the last one has ended to the next boundary, which
need not be a whole piece further.
-/

namespace TrafficPolicy.Stream

variable {count total written k : Nat} {pieces : List Bytes}

namespace Framer

theorem pieceNumber_le_iff (ht : 0 < total) (hc : 0 < count) :
    pieceNumber written total count ≤ k ↔ written < total * k / count := by
  have hceil : pieceNumber written total count = (written + 1) * count ⌈/⌉ total := by
    rw [Nat.ceilDiv_eq_add_pred_div, pieceNumber, Nat.add_sub_assoc ht]
  rw [hceil, ceilDiv_le_iff_le_mul ht, ← Nat.succ_le_iff, Nat.le_div_iff_mul_le hc]

/-- From one boundary to the next it is the quotient, rounded down or up. -/
theorem mul_succ_div (hc : 0 < count) (total k : Nat) :
    total * (k + 1) / count = total * k / count + total / count ∨
      total * (k + 1) / count = total * k / count + total ⌈/⌉ count := by
  rw [Nat.mul_succ, Nat.add_div hc]
  split
  · rename_i hcarry
    have hmod := Nat.mod_lt (total * k) hc
    have hdiv := Nat.div_add_mod total count
    have hceil : total ⌈/⌉ count = total / count + 1 := by
      apply le_antisymm
      · rw [ceilDiv_le_iff_le_mul hc, Nat.mul_succ]
        have := Nat.mod_lt total hc
        omega
      · apply Nat.lt_of_not_le
        rw [ceilDiv_le_iff_le_mul hc]
        omega
    rw [hceil]
    exact .inr rfl
  · exact .inl rfl

theorem mul_succ_div_le (hc : 0 < count) (total k : Nat) :
    total * (k + 1) / count ≤ total * k / count + total ⌈/⌉ count := by
  have hle : total / count ≤ total ⌈/⌉ count := by
    rw [Nat.ceilDiv_eq_add_pred_div]
    exact Nat.div_le_div_right (by omega)
  rcases mul_succ_div hc total k with h | h <;> omega

theorem pieceNumber_le (h : written < total) (hc : 0 < count) : pieceNumber written total count ≤ count := by
  rw [pieceNumber_le_iff (by omega) hc, Nat.mul_div_cancel _ hc]
  exact h

/-- A piece is no longer than the quotient rounded up, wherever in a piece it begins. -/
theorem boundary_le_add (h : written < total) (hc : 0 < count) :
    boundary written total count ≤ written + total ⌈/⌉ count := by
  have ht : 0 < total := by omega
  cases hk : pieceNumber written total count with
  | zero =>
    have hzero : written < total * 0 / count := (pieceNumber_le_iff ht hc).mp hk.le
    simp at hzero
  | succ k =>
    -- The piece before ends where the stream is or before that.
    have hbefore : ¬ written < total * k / count := by
      rw [← pieceNumber_le_iff ht hc, hk]
      omega
    have hstep := mul_succ_div_le hc total k
    rw [boundary, hk]
    omega

/-- If there are no fewer pieces than bytes, each byte is a piece. -/
theorem boundary_eq_succ (h : written < total) (hle : total ≤ count) : boundary written total count = written + 1 := by
  have hc : 0 < count := by omega
  have hlower := lt_boundary h hc
  have hupper := boundary_le_add h hc
  have hone : total ⌈/⌉ count ≤ 1 := by
    rw [ceilDiv_le_iff_le_mul hc, Nat.mul_one]
    exact hle
  omega

/-- If there are no more pieces than bytes, the boundary after a boundary ends the next piece. -/
theorem pieceNumber_boundary (hc : 0 < count) (hle : count ≤ total) (k : Nat) :
    pieceNumber (total * k / count) total count = k + 1 := by
  have ht : 0 < total := by omega
  apply le_antisymm
  · rw [pieceNumber_le_iff ht hc, Nat.mul_succ]
    have hstep : (total * k + count) / count ≤ (total * k + total) / count := Nat.div_le_div_right (by omega)
    rw [Nat.add_div_right _ hc] at hstep
    exact hstep
  · apply Nat.lt_of_not_le
    rw [pieceNumber_le_iff ht hc]
    exact Nat.lt_irrefl _

end Framer

open Framer

/-- Some pieces go on from where a stream is to the end of `total` bytes, each to the next boundary. -/
inductive EvenPieces (count total : Nat) : Nat → List Bytes → Prop
  | done : EvenPieces count total total []
  | piece {written : Nat} {bytes : Bytes} {rest : List Bytes} : written < total →
      written + bytes.length = boundary written total count →
        EvenPieces count total (boundary written total count) rest → EvenPieces count total written (bytes :: rest)

namespace EvenPieces

theorem ne_nil (h : EvenPieces count total written pieces) (hc : 0 < count) : ∀ piece ∈ pieces, piece ≠ [] := by
  induction h with
  | done => simp
  | @piece written bytes rest hlt hlength _ ih =>
    refine List.forall_mem_cons.mpr ⟨?_, ih⟩
    rintro rfl
    have hlower := lt_boundary hlt hc
    rw [List.length_nil] at hlength
    omega

theorem length_le_ceil (h : EvenPieces count total written pieces) (hc : 0 < count) :
    ∀ piece ∈ pieces, piece.length ≤ total ⌈/⌉ count := by
  induction h with
  | done => simp
  | piece hlt hlength _ ih =>
    refine List.forall_mem_cons.mpr ⟨?_, ih⟩
    have hupper := boundary_le_add hlt hc
    omega

theorem exists_end (h : EvenPieces count total written pieces) (hc : 0 < count) {n : Nat} (hpos : 0 < n)
    (hn : n ≤ pieces.length) : ∃ k ≤ count, written + (pieces.take n).flatten.length = total * k / count := by
  induction h generalizing n with
  | done => exact absurd hpos (Nat.not_lt.mpr hn)
  | @piece written bytes rest hlt hlength _ ih =>
    cases n with
    | zero => cases hpos
    | succ n =>
      rw [List.take_succ_cons, List.flatten_cons, List.length_append, ← Nat.add_assoc, hlength]
      cases n with
      | zero => exact ⟨pieceNumber written total count, pieceNumber_le hlt hc, by simp [boundary]⟩
      | succ n => exact ih (Nat.succ_pos n) (by simpa using hn)

/-- From behind a boundary on there are no more pieces than boundaries. -/
theorem length_add_le (h : EvenPieces count total written pieces) (hc : 0 < count) (hk : k ≤ count)
    (hbehind : total * k / count ≤ written) : pieces.length + k ≤ count := by
  induction h generalizing k with
  | done => simpa using hk
  | @piece written bytes rest hlt _ _ ih =>
    have hnext : k < pieceNumber written total count := by
      apply Nat.lt_of_not_le
      rw [pieceNumber_le_iff (by omega) hc]
      omega
    have hrest := ih (pieceNumber_le hlt hc) (Nat.le_refl _)
    rw [List.length_cons]
    omega

/-- From a boundary on, if there is a byte for each piece, each boundary ends a piece. -/
theorem length_add_eq (h : EvenPieces count total written pieces) (hc : 0 < count) (hle : count ≤ total)
    (hk : k ≤ count) (hat : written = total * k / count) : pieces.length + k = count := by
  induction h generalizing k with
  | done =>
    have hend : total * count ≤ total * k := (Nat.le_div_iff_mul_le hc).mp hat.le
    have hcount := Nat.le_of_mul_le_mul_left hend (by omega)
    rw [List.length_nil]
    omega
  | @piece written bytes rest hlt _ _ ih =>
    have hnumber := hat ▸ pieceNumber_boundary hc hle k
    have hrest := ih (hnumber ▸ pieceNumber_le hlt hc) (by rw [boundary, hnumber])
    rw [List.length_cons]
    omega

theorem length_eq_quotient (h : EvenPieces count total written pieces) (hc : 0 < count) (hle : count ≤ total)
    (hat : written = total * k / count) :
    ∀ piece ∈ pieces, piece.length = total / count ∨ piece.length = total ⌈/⌉ count := by
  induction h generalizing k with
  | done => simp
  | @piece written bytes rest hlt hlength _ ih =>
    have hnumber := hat ▸ pieceNumber_boundary hc hle k
    have hend : boundary written total count = total * (k + 1) / count := by rw [boundary, hnumber]
    refine List.forall_mem_cons.mpr ⟨?_, ih hend⟩
    rw [hend, hat] at hlength
    rcases mul_succ_div hc total k with hstep | hstep <;> omega

/-- If there are no fewer pieces than bytes, each byte becomes a piece. -/
theorem bytes_apart (h : EvenPieces count total written pieces) (hle : total ≤ count) :
    written + pieces.length = total ∧ ∀ piece ∈ pieces, piece.length = 1 := by
  induction h with
  | done => simp
  | piece hlt hlength _ ih =>
    obtain ⟨hrest, hone⟩ := ih
    rw [boundary_eq_succ hlt hle] at hlength hrest
    rw [List.length_cons]
    exact ⟨by omega, List.forall_mem_cons.mpr ⟨by omega, hone⟩⟩

/-- From the start of a stream on all pieces are there, or as many as there are bytes. -/
theorem from_start (h : EvenPieces count total 0 pieces) (hc : 0 < count) (ht : 0 < total) :
    pieces.length = min count total ∧
      ∀ piece ∈ pieces, piece.length = total / count ∨ piece.length = total ⌈/⌉ count := by
  have hstart : 0 = total * 0 / count := by simp
  by_cases hle : count ≤ total
  · have hlength := h.length_add_eq hc hle (Nat.zero_le _) hstart
    exact ⟨by omega, h.length_eq_quotient hc hle hstart⟩
  · obtain ⟨hlength, hone⟩ := h.bytes_apart (by omega)
    have hceil : total ⌈/⌉ count = 1 := by
      apply le_antisymm
      · rw [ceilDiv_le_iff_le_mul hc]
        omega
      · apply Nat.lt_of_not_le
        rw [ceilDiv_le_iff_le_mul hc]
        omega
    exact ⟨by omega, fun piece hpiece => .inr (hceil ▸ hone piece hpiece)⟩

end EvenPieces

namespace Framer

theorem evenPieces_blockPieces {data : Bytes} (hc : 0 < count) (h : written + data.length = total) :
    EvenPieces count total written ((blockPieces count total written data hc h).map Piece.bytes) := by
  fun_induction blockPieces count total written data hc h with
  | case1 written h =>
    obtain rfl := h
    exact .done
  | case2 written data h hd hpos hlower hupper next ih =>
    refine .piece (by omega) ?_ ih
    rw [List.length_take]
    omega

theorem after_blockPieces {data : Bytes} (hc : 0 < count) (h : written + data.length = total) :
    ((blockPieces count total written data hc h).getLast?.map Piece.after).getD (.blocks count written) =
      .blocks count total := by
  fun_induction blockPieces count total written data hc h with
  | case1 written h =>
    obtain rfl := h
    rfl
  | case2 written data h hd hpos hlower hupper next ih =>
    rw [List.getLast?_cons, Option.map_some, Option.getD_some, ← ih]
    cases (blockPieces count total next (data.drop (next - written)) hc _).getLast? <;> rfl

theorem evenPieces_cut (hc : 0 < count) (written : Nat) (data : Bytes) :
    EvenPieces count (written + data.length) written ((blocks count written).cut data) := by
  rw [cut, pieces, dif_pos hc]
  exact evenPieces_blockPieces hc rfl

theorem after_blocks (hc : 0 < count) (written : Nat) (data : Bytes) :
    (blocks count written).after data = .blocks count (written + data.length) := by
  rw [after, pieces, dif_pos hc]
  exact after_blockPieces hc rfl

variable {σ : Type} {inner : Sink σ} {horizon : Option Nat}

/-- The framer for a number of pieces counts the bytes that its callers have given. -/
theorem exists_blocks (h : inner.Reliable horizon) (hc : 0 < count) (pushes : List (Nat × Push)) (now : Nat) (s : σ) :
    ∃ time log t, (sink inner.logged).pushAll horizon pushes now (.blocks count 0, [], s) =
      ⟨.ok (), time, (.blocks count (given pushes).length, log, t)⟩ := by
  obtain ⟨time, f, log, t, hrun, hend⟩ := pushAll_induct h (I := fun n f _ => f = .blocks count n)
    (fun n f log data hf => by rw [hf, after_blocks hc]) (fun n f log hf => hf) pushes now rfl s
  rw [Nat.zero_add] at hend
  exact ⟨time, log, t, hend ▸ hrun⟩

/-- A framer for a number of pieces, over a sink that never fails. Whatever has been written before, a write ends well
and is handed on in pieces, none of them empty, with a flush after each. If it makes the stream `total` bytes long, it
is cut into no more pieces than the number, none longer than the quotient rounded up, and all end at boundaries. A
first write is cut into as many pieces as the number, or into its bytes if these are fewer, and no two pieces differ
by more than what rounding makes. -/
theorem blocks_even (h : inner.Reliable horizon) (hc : 1 ≤ count) (before : List (Nat × Push)) (now : Nat) (s : σ)
    (later : Nat) (data : Bytes) :
    let caller := (sink inner.logged).pushAll horizon before now (ofCount count, [], s)
    let ended := ((sink inner.logged).write data).run horizon later caller.state
    let total := (given before).length + data.length
    caller.verdict = .ok () ∧ ended.verdict = .ok () ∧
      ∃ pieces : List Bytes,
        ended.state.2.1 = caller.state.2.1 ++ pieces.flatMap (fun piece => [.write piece, .flush]) ∧
        pieces.flatten = data ∧ (∀ piece ∈ pieces, piece ≠ []) ∧
        pieces.length ≤ count ∧ (∀ piece ∈ pieces, piece.length ≤ total ⌈/⌉ count) ∧
        (∀ n, 0 < n → n ≤ pieces.length →
          ∃ k ≤ count, (given before).length + (pieces.take n).flatten.length = total * k / count) ∧
        (given before = [] → data ≠ [] → pieces.length = min count data.length ∧
          ∀ piece ∈ pieces, piece.length = data.length / count ∨ piece.length = data.length ⌈/⌉ count) := by
  have hstart : ofCount count = .blocks count 0 := by rw [ofCount, Nat.max_eq_right hc]
  rw [hstart]
  obtain ⟨time, log, t, hcaller⟩ := exists_blocks h hc before now s
  obtain ⟨time', t', hwrite⟩ := exists_write h later (.blocks count (given before).length) log t data
  have heven := evenPieces_cut hc (given before).length data
  rw [hcaller]
  dsimp only
  rw [hwrite]
  refine ⟨rfl, rfl, _, rfl, flatten_cut _ _, heven.ne_nil hc, heven.length_add_le hc (Nat.zero_le _) (by simp),
    heven.length_le_ceil hc, fun n => heven.exists_end hc, fun hfirst hdata => ?_⟩
  rw [hfirst, List.length_nil, Nat.zero_add] at heven
  rw [hfirst, List.length_nil]
  exact heven.from_start hc (List.length_pos_of_ne_nil hdata)

/-- Ten bytes at once become four pieces of two or three bytes. -/
theorem blocks_even_ten :
    let ended := ((sink (recorder true {}).logged).write (List.replicate 10 0)).run none 0 (ofCount 4, [], {})
    ended.verdict = .ok () ∧ ∃ pieces : List Bytes,
      ended.state.2.1 = pieces.flatMap (fun piece => [.write piece, .flush]) ∧ pieces.length = 4 ∧
        ∀ piece ∈ pieces, piece.length = 2 ∨ piece.length = 3 := by
  obtain ⟨-, hok, pieces, hlog, -, -, -, -, -, hfirst⟩ :=
    blocks_even ((prompt_recorder true).reliable none) (show 1 ≤ 4 by decide) [] 0 {} 0 (List.replicate 10 0)
  exact ⟨hok, pieces, hlog, hfirst rfl (by decide)⟩

end Framer

end TrafficPolicy.Stream
