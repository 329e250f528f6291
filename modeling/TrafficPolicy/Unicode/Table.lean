import TrafficPolicy.Unicode.CharSet

/-!
# Tables of characters

A property with many values is a table of runs: names that begin with a capital, each followed by the
number of code points that have the value, where a name alone stands for one. Runs follow each other
from zero on. A property that holds or not is a table of ranges in hexadecimal digits.
-/

namespace TrafficPolicy.Unicode

structure Run where
  first : Nat
  last : Nat
  name : String
deriving DecidableEq, Repr

/-- Reads runs from `start` on, the first of which has been read up to its name and count. -/
def runsFrom (start : Nat) (name : String) (count : Nat) : List Char → List Run
  | [] => if name.isEmpty then [] else [⟨start, start + max count 1 - 1, name⟩]
  | c :: cs =>
    if c.isDigit then runsFrom start name (10 * count + (c.toNat - '0'.toNat)) cs
    else if c.isUpper && !name.isEmpty then
      ⟨start, start + max count 1 - 1, name⟩ :: runsFrom (start + max count 1) (String.singleton c) 0 cs
    else runsFrom start (name.push c) count cs

def runsOf (table : List String) : List Run :=
  runsFrom 0 "" 0 (table.flatMap String.toList)

def ofRuns (runs : List Run) (names : List String) : CharSet :=
  .ofRanges <| runs.filterMap fun run =>
    if names.contains run.name then some (run.first, run.last) else none

def hexDigitValue (c : Char) : Nat :=
  if c.isDigit then c.toNat - '0'.toNat else c.toNat - 'A'.toNat + 10

def hexCode (digits : List Char) : Nat :=
  digits.foldl (fun code c => 16 * code + hexDigitValue c) 0

/-- Reads a code point, or a range of them with a hyphen between its ends. -/
def hexRange (word : List Char) : Nat × Nat :=
  let first := hexCode (word.takeWhile (· != '-'))
  match word.dropWhile (· != '-') with
  | _ :: last => (first, hexCode last)
  | [] => (first, first)

/-- Reads the words of a line as ranges; `word` is the one that has been begun, its last digit first. -/
def hexRangesFrom (word : List Char) : List Char → List (Nat × Nat)
  | [] => if word.isEmpty then [] else [hexRange word.reverse]
  | ' ' :: cs => hexRange word.reverse :: hexRangesFrom [] cs
  | c :: cs => hexRangesFrom (c :: word) cs

def rangesOf (table : List String) : CharSet :=
  .ofRanges (table.flatMap fun line => hexRangesFrom [] line.toList)

end TrafficPolicy.Unicode
