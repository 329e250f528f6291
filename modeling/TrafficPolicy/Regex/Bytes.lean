import TrafficPolicy.Regex.Syntax

/-!
# Ranges of characters as bytes

A range of characters is the union of sequences of byte ranges: every choice of one byte out of each
range of a sequence encodes a character of the range, and every character is encoded by one of the
sequences. The range is cut where the length of the encoding changes, and where the first bytes differ
while the last ones do not take all their values.
-/

namespace TrafficPolicy.Regex

def encode (code : Nat) : List Nat :=
  let tail (n : Nat) : Nat := 0x80 + n % 0x40
  if code < 0x80 then [code]
  else if code < 0x800 then [0xC0 + code / 0x40, tail code]
  else if code < 0x10000 then [0xE0 + code / 0x1000, tail (code / 0x40), tail code]
  else [0xF0 + code / 0x40000, tail (code / 0x1000), tail (code / 0x40), tail code]

/-- Where a range is cut at the blocks of a size: after the first block if it is not whole, else before
the last one if that is not whole. A range inside one block is not cut. Gives the last code point before
the cut. -/
def blockCut? (block first last : Nat) : Option Nat :=
  if first / block = last / block then none
  else if first % block ≠ 0 then some (first / block * block + (block - 1))
  else if last % block ≠ block - 1 then some (last / block * block - 1)
  else none

/-- The last code point of the front part of a range that is no single sequence of byte ranges. -/
def cut? (first last : Nat) : Option Nat :=
  let longer? := [0x7F, 0x7FF, 0xFFFF].find? fun code => first ≤ code && code < last
  match longer? with
  | some code => some code
  | none =>
    if last < 0x80 then none
    else blockCut? 0x40 first last <|> blockCut? 0x1000 first last <|> blockCut? 0x40000 first last

/-- The sequences of a range without surrogates. -/
def sequencesWithin (first last : Nat) : List (List (Nat × Nat)) :=
  match cut? first last with
  | none => [(encode first).zip (encode last)]
  | some code =>
    if _h : first ≤ code ∧ code < last then
      sequencesWithin first code ++ sequencesWithin (code + 1) last
    else []
termination_by last - first
decreasing_by all_goals omega

/-- The sequences of byte ranges of a range of characters, which may reach across the surrogates. -/
def sequences (first last : Nat) : List (List (Nat × Nat)) :=
  if first < 0xE000 ∧ 0xD7FF < last then
    sequencesWithin first 0xD7FF ++ sequencesWithin 0xE000 last
  else sequencesWithin first last

def sequencesOf (set : Unicode.CharSet) : List (List (Nat × Nat)) :=
  set.ranges.flatMap fun (first, last) => sequences first last

end TrafficPolicy.Regex
