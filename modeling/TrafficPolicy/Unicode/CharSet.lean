/-!
# Sets of characters

A set is a list of closed ranges of code points, sorted and apart from each other. The ends of a range
are characters; the surrogates between U+D7FF and U+E000 are none, so a range may reach across them.
-/

namespace TrafficPolicy.Unicode

/-- A set of characters as sorted ranges with gaps between them. -/
structure CharSet where
  ranges : List (Nat × Nat)
deriving DecidableEq, Repr

namespace CharSet

def maxCode : Nat := 0x10FFFF

def after (code : Nat) : Nat :=
  if code = 0xD7FF then 0xE000 else code + 1

def before (code : Nat) : Nat :=
  if code = 0xE000 then 0xD7FF else code - 1

/-- Joins a range with those after it whose code points touch it; the ranges are sorted by their
start. -/
def joinFrom (lo hi : Nat) : List (Nat × Nat) → List (Nat × Nat)
  | [] => [(lo, hi)]
  | (lo', hi') :: rest =>
    if lo' ≤ hi + 1 then joinFrom lo (max hi hi') rest else (lo, hi) :: joinFrom lo' hi' rest

def joinRanges : List (Nat × Nat) → List (Nat × Nat)
  | [] => []
  | (lo, hi) :: rest => joinFrom lo hi rest

def ofRanges (ranges : List (Nat × Nat)) : CharSet :=
  ⟨joinRanges (ranges.mergeSort fun a b => a.1 ≤ b.1)⟩

def empty : CharSet := ⟨[]⟩

def full : CharSet := ⟨[(0, maxCode)]⟩

def single (c : Char) : CharSet := ⟨[(c.toNat, c.toNat)]⟩

def range (first last : Char) : CharSet := ⟨[(first.toNat, last.toNat)]⟩

def ofList (cs : List Char) : CharSet :=
  ofRanges (cs.map fun c => (c.toNat, c.toNat))

def containsFrom (code : Nat) : List (Nat × Nat) → Bool
  | [] => false
  | (lo, hi) :: rest => if hi < code then containsFrom code rest else lo ≤ code

def containsCode (s : CharSet) (code : Nat) : Bool :=
  containsFrom code s.ranges

def contains (s : CharSet) (c : Char) : Bool :=
  s.containsCode c.toNat

def union (a b : CharSet) : CharSet :=
  ofRanges (a.ranges ++ b.ranges)

def unionAll (sets : List CharSet) : CharSet :=
  ofRanges (sets.flatMap ranges)

/-- The range between two ranges, of which the first ends at `hi` and the second begins at `lo`. If
only the surrogates are between them there is no character to hold, and the range goes from the one end
to the other. -/
def gap (hi lo : Nat) : Nat × Nat :=
  if after hi ≤ before lo then (after hi, before lo) else (before lo, after hi)

/-- The ranges between and after some ranges, where the range before them ends at `hi`. -/
def gapsAfter (hi : Nat) : List (Nat × Nat) → List (Nat × Nat)
  | [] => if hi < maxCode then [(after hi, maxCode)] else []
  | (lo, hi') :: rest => gap hi lo :: gapsAfter hi' rest

/-- The characters outside of the ranges. Between two ranges that only the surrogates keep apart it has
the two characters at their ends. -/
def complement (s : CharSet) : CharSet :=
  match s.ranges with
  | [] => full
  | (lo, hi) :: rest =>
    if 0 < lo then ⟨(0, before lo) :: gapsAfter hi rest⟩ else ⟨gapsAfter hi rest⟩

def interRanges : List (Nat × Nat) → List (Nat × Nat) → List (Nat × Nat)
  | [], _ => []
  | _, [] => []
  | (lo, hi) :: as, (lo', hi') :: bs =>
    let rest := if hi < hi' then interRanges as ((lo', hi') :: bs) else interRanges ((lo, hi) :: as) bs
    if max lo lo' ≤ min hi hi' then (max lo lo', min hi hi') :: rest else rest
termination_by as bs => as.length + bs.length

def inter (a b : CharSet) : CharSet :=
  ⟨interRanges a.ranges b.ranges⟩

def diffRanges : List (Nat × Nat) → List (Nat × Nat) → List (Nat × Nat)
  | [], _ => []
  | as, [] => as
  | (lo, hi) :: as, (lo', hi') :: bs =>
    if hi' < lo then diffRanges ((lo, hi) :: as) bs
    else if hi < lo' then (lo, hi) :: diffRanges as ((lo', hi') :: bs)
    else
      let rest :=
        if hi' < hi then diffRanges ((after hi', hi) :: as) bs else diffRanges as ((lo', hi') :: bs)
      if lo < lo' then (lo, before lo') :: rest else rest
termination_by as bs => as.length + bs.length

def diff (a b : CharSet) : CharSet :=
  ⟨diffRanges a.ranges b.ranges⟩

def symmDiff (a b : CharSet) : CharSet :=
  (a.union b).diff (a.inter b)

def isAscii (s : CharSet) : Bool :=
  s.ranges.all fun r => r.2 < 128

def single? (s : CharSet) : Option Char :=
  match s.ranges with
  | [(lo, hi)] => if lo = hi then some (Char.ofNat lo) else none
  | _ => none

end CharSet

end TrafficPolicy.Unicode
