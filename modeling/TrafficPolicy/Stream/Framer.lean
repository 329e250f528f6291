import TrafficPolicy.Quantity.PieceSizes
import TrafficPolicy.Stream.Sink

/-!
# Sending a response in pieces

Each piece is followed by a flush. Pieces are of given sizes, or there is to be a given number of them: then
the piece `k` of a stream that has been `total` bytes long so far ends at `total * k / count`.
-/

namespace TrafficPolicy.Stream

/-- Where the pieces end, as far as this depends on what has been sent. -/
inductive Framer where
  | blocks (count written : Nat)
  | sizes (sizes : PieceSizes)
deriving DecidableEq, Repr

/-- A piece of a write, with the framer while it is being sent and after that. -/
structure Piece where
  bytes : Bytes
  before : Framer
  after : Framer
deriving DecidableEq, Repr

namespace Framer

variable {σ : Type}

/-- A framer for a number of pieces, at least one. -/
def ofCount (count : Nat) : Framer := .blocks (max 1 count) 0

def ofSizes (sizes : List Int) : Framer := .sizes ⟨sizes⟩

/-- The number of the first piece that ends behind the bytes written. -/
def pieceNumber (written total count : Nat) : Nat :=
  ((written + 1) * count + (total - 1)) / total

/-- The end of the first piece that ends behind the bytes written. -/
def boundary (written total count : Nat) : Nat :=
  total * pieceNumber written total count / count

theorem lt_boundary {written total count : Nat} (h : written < total) (hc : 0 < count) :
    written < boundary written total count := by
  have ht : 0 < total := by omega
  refine Nat.lt_of_succ_le ((Nat.le_div_iff_mul_le hc).2 ?_)
  show (written + 1) * count ≤ total * pieceNumber written total count
  have hdiv := Nat.div_add_mod ((written + 1) * count + (total - 1)) total
  have hmod := Nat.mod_lt ((written + 1) * count + (total - 1)) ht
  unfold pieceNumber
  omega

theorem boundary_le {written total : Nat} (count : Nat) (h : written < total) :
    boundary written total count ≤ total := by
  have ht : 0 < total := by omega
  have hk : pieceNumber written total count ≤ count := by
    refine Nat.le_of_lt_succ ((Nat.div_lt_iff_lt_mul ht).2 ?_)
    have : (written + 1) * count ≤ total * count := Nat.mul_le_mul_right count h
    have hsucc : (count + 1) * total = total * count + total := by
      rw [Nat.succ_mul, Nat.mul_comm count total]
    show (written + 1) * count + (total - 1) < (count + 1) * total
    omega
  exact Nat.div_le_of_le_mul (Nat.mul_comm count total ▸ Nat.mul_le_mul_left total hk)

/-- The pieces of a write of which `written` bytes of `total` have been sent. -/
def blockPieces (count total written : Nat) (data : Bytes) (hc : 0 < count)
    (h : written + data.length = total) : List Piece :=
  if hd : data = [] then []
  else
    have := List.length_pos_iff.2 hd
    have lower := lt_boundary (show written < total by omega) hc
    have upper := boundary_le count (show written < total by omega)
    let next := boundary written total count
    ⟨data.take (next - written), .blocks count written, .blocks count next⟩ ::
      blockPieces count total next (data.drop (next - written)) hc (by
        simp only [List.length_drop]
        omega)
termination_by data.length
decreasing_by
  simp only [List.length_drop]
  omega

def sizePieces (sizes : PieceSizes) (data : Bytes) : List Piece :=
  if hd : data = [] then []
  else
    let later := sizes.next.2
    match h : sizes.next.1 with
    | none => [⟨data, .sizes later, .sizes later⟩]
    | some n =>
      have := sizes.next_pos h
      have := List.length_pos_iff.2 hd
      ⟨data.take n, .sizes later, .sizes later⟩ :: sizePieces later (data.drop n)
termination_by data.length
decreasing_by
  simp only [List.length_drop]
  omega

def pieces : Framer → Bytes → List Piece
  | .blocks count written, data =>
    if hc : 0 < count then blockPieces count (written + data.length) written data hc rfl
    else [⟨data, .blocks count written, .blocks count (written + data.length)⟩]
  | .sizes upcoming, data => sizePieces upcoming data

/-- Sends a piece, with a flush after it. -/
def send (inner : Sink σ) (piece : Piece) : Call (Framer × σ) Unit := do
  Call.setOwn piece.before
  Call.inner (inner.write piece.bytes)
  Call.inner inner.flush
  Call.setOwn piece.after

def sink (inner : Sink σ) : Sink (Framer × σ) where
  divisible := inner.divisible
  write data := Call.choose fun framer => Call.each (framer.pieces data) (send inner)
  flush := Call.inner inner.flush
  reset := Call.inner inner.reset

end Framer

end TrafficPolicy.Stream
