import TrafficPolicy.Proofs.Stream.Pieces

/-!
# Pieces of given sizes

The pieces of a stream are numbered, and each is of the size that stands at its number, or of the last size. A write
that ends takes the rest of a size away, and where there is no positive size a piece is all that is left of the write.
-/

namespace TrafficPolicy

namespace PieceSizes

/-- The limit for a piece by its number: that of the size at this place, or of the last size. -/
def limitAt (sizes : List Int) (number : Nat) : Option Nat := sizes[min number (sizes.length - 1)]?.bind limit

def afterPieces (sizes : List Int) (number : Nat) : PieceSizes := ⟨sizes.drop (min number (sizes.length - 1))⟩

theorem next_afterPieces (sizes : List Int) (number : Nat) :
    (afterPieces sizes number).next = (limitAt sizes number, afterPieces sizes (number + 1)) := by
  by_cases hempty : sizes = []
  · simp [hempty, limitAt, afterPieces, next]
  · have hpos := List.length_pos_iff.mpr hempty
    have hlt : min number (sizes.length - 1) < sizes.length := by omega
    rw [limitAt, List.getElem?_eq_getElem hlt, Option.bind_some, next, afterPieces, List.drop_eq_getElem_cons hlt]
    by_cases hlast : sizes.length - 1 ≤ number
    · have hnil : sizes.drop (min number (sizes.length - 1) + 1) = [] := by
        apply List.drop_eq_nil_of_le
        omega
      have hsame : min (number + 1) (sizes.length - 1) = min number (sizes.length - 1) := by omega
      rw [hnil, afterPieces, hsame, List.drop_eq_getElem_cons hlt, hnil]
    · have hnext : min (number + 1) (sizes.length - 1) = min number (sizes.length - 1) + 1 := by omega
      have hmore : min number (sizes.length - 1) + 1 < sizes.length := by omega
      rw [afterPieces, hnext, List.drop_eq_getElem_cons hmore]

theorem limitAt_pos {sizes : List Int} {number n : Nat} (h : limitAt sizes number = some n) : 0 < n := by
  obtain ⟨size, -, hlimit⟩ := Option.bind_eq_some_iff.mp h
  exact limit_pos hlimit

end PieceSizes

namespace Stream

open PieceSizes Framer

variable {sizes : List Int} {number left : Nat} {pieces : List Bytes}

/-- The length of a piece by its number, if some bytes are left of the write. -/
def sizeAt (sizes : List Int) (number left : Nat) : Nat :=
  match limitAt sizes number with
  | none => left
  | some limit => min limit left

/-- Some pieces with the numbers from one on are of the given sizes, and come to a number of bytes that are left. -/
inductive SizedPieces (sizes : List Int) : Nat → Nat → List Bytes → Prop
  | done {number : Nat} : SizedPieces sizes number 0 []
  | piece {number left : Nat} {bytes : Bytes} {rest : List Bytes} : 0 < left → bytes.length = sizeAt sizes number left →
      SizedPieces sizes (number + 1) (left - bytes.length) rest → SizedPieces sizes number left (bytes :: rest)

theorem sizeAt_pos (sizes : List Int) (number : Nat) (h : 0 < left) : 0 < sizeAt sizes number left := by
  unfold sizeAt
  split
  · exact h
  · rename_i hlimit
    have := limitAt_pos hlimit
    omega

namespace SizedPieces

theorem ne_nil (h : SizedPieces sizes number left pieces) : ∀ piece ∈ pieces, piece ≠ [] := by
  induction h with
  | done => simp
  | @piece number left bytes rest hleft hlength _ ih =>
    refine List.forall_mem_cons.mpr ⟨?_, ih⟩
    apply List.ne_nil_of_length_pos
    rw [hlength]
    exact sizeAt_pos sizes number hleft

theorem length_getElem (h : SizedPieces sizes number left pieces) {j : Nat} (hj : j < pieces.length) :
    pieces[j].length = sizeAt sizes (number + j) (left - (pieces.take j).flatten.length) := by
  induction h generalizing j with
  | done => cases hj
  | @piece number left bytes rest _ hlength _ ih =>
    cases j with
    | zero => simpa using hlength
    | succ j =>
      have hrest := ih (Nat.lt_of_succ_lt_succ hj)
      rw [List.getElem_cons_succ, hrest, List.take_succ_cons, List.flatten_cons, List.length_append, Nat.sub_sub,
        Nat.add_assoc, Nat.add_comm 1]

end SizedPieces

namespace Framer

theorem sizedPieces_sizePieces (sizes : List Int) (number : Nat) (data : Bytes) :
    SizedPieces sizes number data.length ((sizePieces (afterPieces sizes number) data).map Piece.bytes) := by
  generalize hcurrent : afterPieces sizes number = current
  fun_induction sizePieces current data generalizing number with
  | case1 => exact .done
  | case2 current data hdata later hlimit =>
    have hnone : limitAt sizes number = none := by rw [← hlimit, ← hcurrent, next_afterPieces]
    refine .piece (List.length_pos_iff.mpr hdata) (by rw [sizeAt, hnone]) ?_
    rw [Nat.sub_self]
    exact .done
  | case3 current data hdata later n hlimit hn hpos ih =>
    have hsome : limitAt sizes number = some n := by rw [← hlimit, ← hcurrent, next_afterPieces]
    have hlater : afterPieces sizes (number + 1) = current.next.2 := by rw [← hcurrent, next_afterPieces]
    refine .piece hpos (by rw [sizeAt, hsome, List.length_take]) ?_
    have hleft : data.length - (data.take n).length = (data.drop n).length := by
      rw [List.length_take, List.length_drop]
      omega
    rw [hleft]
    exact ih (number + 1) hlater

theorem after_sizePieces (sizes : List Int) (number : Nat) (data : Bytes) :
    ((sizePieces (afterPieces sizes number) data).getLast?.map Piece.after).getD (.sizes (afterPieces sizes number)) =
      .sizes (afterPieces sizes (number + (sizePieces (afterPieces sizes number) data).length)) := by
  generalize hcurrent : afterPieces sizes number = current
  fun_induction sizePieces current data generalizing number with
  | case1 =>
    rw [← hcurrent]
    rfl
  | case2 current data hdata later hlimit =>
    have hlater : afterPieces sizes (number + 1) = current.next.2 := by rw [← hcurrent, next_afterPieces]
    rw [List.length_singleton, hlater]
    rfl
  | case3 current data hdata later n hlimit hn hpos ih =>
    have hlater : afterPieces sizes (number + 1) = current.next.2 := by rw [← hcurrent, next_afterPieces]
    have hrest := ih (number + 1) hlater
    rw [List.length_cons, Nat.add_comm _ 1, ← Nat.add_assoc, ← hrest, List.getLast?_cons]
    cases (sizePieces later (data.drop n)).getLast? <;> rfl

variable {σ : Type} {inner : Sink σ} {horizon : Option Nat}

/-- The number of pieces that a sink has been asked for. -/
def piecesIn (log : List Action) : Nat := (log.filterMap Action.bytes?).length

theorem piecesIn_append_sent (log : List Action) (pieces : List Bytes) :
    piecesIn (log ++ sent pieces) = piecesIn log + pieces.length := by
  have hsent : (sent pieces).filterMap Action.bytes? = pieces := by
    induction pieces with
    | nil => rfl
    | cons piece pieces ih =>
      rw [sent, List.flatMap_cons, List.filterMap_append]
      exact congrArg (piece :: ·) ih
  rw [piecesIn, List.filterMap_append, List.length_append, hsent, piecesIn]

theorem piecesIn_append_flush (log : List Action) : piecesIn (log ++ [.flush]) = piecesIn log := by
  rw [piecesIn, List.filterMap_append]
  exact congrArg List.length (List.append_nil _)

/-- A framer for given sizes counts the pieces that it has handed on. -/
theorem exists_sizes (h : inner.Reliable horizon) (sizes : List Int) (pushes : List (Nat × Push)) (now : Nat) (s : σ) :
    ∃ time log t, (sink inner.logged).pushAll horizon pushes now (ofSizes sizes, [], s) =
      ⟨.ok (), time, (.sizes (afterPieces sizes (piecesIn log)), log, t)⟩ := by
  have hstart : ofSizes sizes = .sizes (afterPieces sizes (piecesIn [])) := by
    simp [ofSizes, afterPieces, piecesIn]
  obtain ⟨time, f, log, t, hrun, hend⟩ := pushAll_induct h
    (I := fun _ f log => f = .sizes (afterPieces sizes (piecesIn log))) (fun n f log data hf => by
      rw [hf, piecesIn_append_sent, cut, List.length_map]
      exact after_sizePieces sizes _ data) (fun n f log hf => by rw [hf, piecesIn_append_flush]) pushes now
    (n := 0) hstart s
  exact ⟨time, log, t, hend ▸ hrun⟩

/-- A framer for given sizes, over a sink that never fails. Whatever has been written before, a write ends well and is
handed on in pieces, none of them empty, with a flush after each. Numbered over the whole stream, each piece is as
long as the size at its number says, or the last size if there are no more, but no longer than what is left of the
write; where no positive size says anything it is all that is left. -/
theorem sizes_followed (h : inner.Reliable horizon) (sizes : List Int) (before : List (Nat × Push)) (now : Nat) (s : σ)
    (later : Nat) (data : Bytes) :
    let caller := (sink inner.logged).pushAll horizon before now (ofSizes sizes, [], s)
    let ended := ((sink inner.logged).write data).run horizon later caller.state
    caller.verdict = .ok () ∧ ended.verdict = .ok () ∧
      ∃ pieces : List Bytes,
        ended.state.2.1 = caller.state.2.1 ++ pieces.flatMap (fun piece => [.write piece, .flush]) ∧
        pieces.flatten = data ∧ (∀ piece ∈ pieces, piece ≠ []) ∧
        ∀ j (hj : j < pieces.length), pieces[j].length =
          sizeAt sizes (piecesIn caller.state.2.1 + j) (data.length - (pieces.take j).flatten.length) := by
  obtain ⟨time, log, t, hcaller⟩ := exists_sizes h sizes before now s
  obtain ⟨time', t', hwrite⟩ := exists_write h later (.sizes (afterPieces sizes (piecesIn log))) log t data
  have hsized := sizedPieces_sizePieces sizes (piecesIn log) data
  rw [hcaller]
  dsimp only
  rw [hwrite]
  exact ⟨rfl, rfl, _, rfl, flatten_cut _ _, hsized.ne_nil, fun j hj => hsized.length_getElem hj⟩

/-- The first byte uses up a size of two; the next six bytes are of the sizes three and three. -/
theorem sizes_followed_three :
    let caller := (sink (recorder true {}).logged).pushAll none [(0, .write [0])] 0 (ofSizes [2, 3], [], {})
    let ended := ((sink (recorder true {}).logged).write (List.replicate 6 0)).run none 0 caller.state
    ended.verdict = .ok () ∧ ∃ pieces : List Bytes,
      ended.state.2.1 = caller.state.2.1 ++ pieces.flatMap (fun piece => [.write piece, .flush]) ∧
        pieces.flatten = List.replicate 6 0 ∧ ∃ hj : 0 < pieces.length, pieces[0].length = 3 := by
  obtain ⟨-, hok, pieces, hlog, hflatten, -, hlength⟩ :=
    sizes_followed ((prompt_recorder true).reliable none) [2, 3] [(0, .write [0])] 0 {} 0 (List.replicate 6 0)
  have hj : 0 < pieces.length := by
    apply List.length_pos_iff.mpr
    rintro rfl
    exact absurd hflatten (by decide)
  refine ⟨hok, pieces, hlog, hflatten, hj, (hlength 0 hj).trans ?_⟩
  rw [List.take_zero, List.flatten_nil]
  decide +kernel

end Framer

end Stream

end TrafficPolicy
