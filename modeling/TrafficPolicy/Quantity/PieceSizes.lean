import TrafficPolicy.Error
import TrafficPolicy.Number.Numeral
import TrafficPolicy.Text.Blank

/-!
# Sequences of piece sizes

A stream is cut into pieces of given sizes, one after the other; the last size counts for all
further pieces. A size that is zero or negative stands for all that is left of the current write, as
does a sequence without sizes.
-/

namespace TrafficPolicy

/-- The sizes still to come; the last one stays. -/
structure PieceSizes where
  upcoming : List Int
deriving DecidableEq, Repr

namespace PieceSizes

def readItem (item : List Char) : Except Reason Int :=
  let item := Text.trim item
  match Number.readInteger? item with
  | some size => .ok size
  | none => .error (.notSize (String.ofList item))

/-- Reads a comma separated list of sizes such as `100,200,-1`. -/
def read (input : String) : Except Reason (List Int) :=
  let text := Text.trim input.toList
  if text.isEmpty then .error .emptySizes
  else (Text.splitOn ',' text).mapM readItem

def text (sizes : List Int) : String :=
  Text.joinWith "," (sizes.map toString)

/-- The limit that one size sets to a piece; `none` is no limit. -/
def limit (size : Int) : Option Nat :=
  if size ≤ 0 then none else some size.toNat

def next (sizes : PieceSizes) : Option Nat × PieceSizes :=
  match sizes.upcoming with
  | [] => (none, sizes)
  | [size] => (limit size, sizes)
  | size :: rest => (limit size, ⟨rest⟩)

theorem limit_pos {size : Int} {n : Nat} (h : limit size = some n) : 0 < n := by
  unfold limit at h
  split at h
  · contradiction
  · injection h with h
    omega

theorem next_pos (sizes : PieceSizes) {n : Nat} (h : sizes.next.1 = some n) : 0 < n := by
  unfold next at h
  split at h
  · contradiction
  · exact limit_pos h
  · exact limit_pos h

end PieceSizes

end TrafficPolicy
