import TrafficPolicy.Regex.Escape

/-!
# Sets in brackets

A set in brackets lists characters, ranges, named sets and sets in brackets. Operators take the
intersection, difference or symmetric difference of what stands before and after them, from the left to
the right. The reader goes over the text once with a stack of open brackets.
-/

namespace TrafficPolicy.Regex

open Unicode (CharSet)

/-- How deep the parts of an expression may lie inside each other. -/
def maxDepth : Nat := 250

inductive SetOp where
  | inter
  | diff
  | symmDiff

def SetOp.apply : SetOp → CharSet → CharSet → CharSet
  | .inter, a, b => a.inter b
  | .diff, a, b => a.diff b
  | .symmDiff, a, b => a.symmDiff b

/-- The set of a part in brackets, and how deep its parts lie inside each other. -/
structure SetPart where
  set : CharSet
  depth : Nat

/-- A bracket that has been opened: the operator before the members with its left side, and the members
read so far. -/
structure OpenSet where
  negated : Bool
  before : Option (SetOp × SetPart) := none
  ranges : List (Nat × Nat) := []
  members : Nat := 0
  depth : Nat := 0

namespace OpenSet

def add (o : OpenSet) (set : CharSet) (depth : Nat) : OpenSet :=
  { o with ranges := set.ranges ++ o.ranges, members := o.members + 1, depth := max o.depth depth }

/-- The members since the last operator. Several members make a part of their own. -/
def union (o : OpenSet) : SetPart :=
  ⟨.ofRanges o.ranges, if 2 ≤ o.members then o.depth + 1 else o.depth⟩

def part (s : Settings) (o : OpenSet) : SetPart :=
  let right := o.union
  match o.before with
  | none => right
  | some (op, left) =>
    ⟨op.apply (s.fold left.set) (s.fold right.set), max left.depth right.depth + 1⟩

def operate (s : Settings) (op : SetOp) (o : OpenSet) : OpenSet :=
  { negated := o.negated, before := some (op, o.part s) }

def close? (s : Settings) (o : OpenSet) : Option SetPart :=
  let part := o.part s
  (s.negate? o.negated (s.fold part.set)).map fun set => ⟨set, part.depth + 1⟩

end OpenSet

/-- Takes the hyphens at the start of a set, which stand for themselves. Every step takes a character,
so the length of the text bounds their number. -/
def takeHyphens (s : Settings) : Nat → OpenSet → List Char → OpenSet × List Char
  | steps + 1, o, '-' :: rest => takeHyphens s steps (o.add (.single '-') 0) (s.skip rest)
  | _, o, cs => (o, cs)

/-- Opens a set after its bracket: reads whether it is negated, and the hyphens or the closing bracket
that stand first and for themselves. -/
def readSetStart (s : Settings) (cs : List Char) : Option (OpenSet × List Char) :=
  let cs := s.skip cs
  let (negated, cs) := match cs with
    | '^' :: rest => (true, s.skip rest)
    | _ => (false, cs)
  let (o, cs) := takeHyphens s cs.length { negated } cs
  match cs with
  | ']' :: rest =>
    if o.members = 0 then some (o.add (.single ']') 0, s.skip rest) else some (o, cs)
  | _ => some (o, cs)

/-- Reads a named set of ASCII characters after its bracket, if there is one. The set itself is `none`
if it is none of single bytes. -/
def readAsciiSet (s : Settings) : List Char → Option (Option CharSet × List Char)
  | ':' :: cs =>
    let (negated, cs) := match cs with
      | '^' :: rest => (true, rest)
      | _ => (false, cs)
    match cs.dropWhile (· != ':') with
    | ':' :: ']' :: rest =>
      (asciiSet? (String.ofList (cs.takeWhile (· != ':')))).map fun set =>
        (s.negate? negated (s.fold set), rest)
    | _ => none
  | _ => none

def readMember (s : Settings) : List Char → Option (Atom × List Char)
  | [] => none
  | '\\' :: cs => readEscape s cs
  | c :: cs => some (.literal c, cs)

/-- The set of a member that is no end of a range. -/
def Atom.member? (s : Settings) : Atom → Option CharSet
  | .literal c => if s.unicode || c.toNat < 128 then some (.single c) else none
  | .set members => some members
  | .look _ => none

def readRange (s : Settings) (cs : List Char) : Option (CharSet × List Char) := do
  let (first, rest) ← readMember s cs
  let rest := s.skip rest
  let single : Option (CharSet × List Char) := (first.member? s).map (·, rest)
  match rest with
  | [] => none
  | '-' :: after =>
    if s.peek after = some ']' ∨ s.peek after = some '-' then single
    else
      let (last, rest) ← readMember s (s.skip after)
      match first, last with
      | .literal a, .literal b =>
        if a ≤ b && (s.unicode || b.toNat < 128) then some (.range a b, rest) else none
      | _, _ => none
  | _ => single

/-- Reads the members of a set up to its closing bracket; `around` are the brackets that are open around
it. Every step takes a character, so the length of the text bounds their number. -/
def readSet (s : Settings) : Nat → OpenSet → List OpenSet → List Char → Option (SetPart × List Char)
  | 0, _, _, _ => none
  | steps + 1, o, around, cs =>
    match s.skip cs with
    | [] => none
    | '[' :: rest =>
      match readAsciiSet s rest with
      | some (set?, rest) =>
        match set? with
        | none => none
        | some set => readSet s steps (o.add set 0) around rest
      | none =>
        if maxDepth ≤ around.length then none
        else
          match readSetStart s rest with
          | none => none
          | some (inner, rest) => readSet s steps inner (o :: around) rest
    | ']' :: rest =>
      match o.close? s with
      | none => none
      | some part =>
        match around with
        | [] => some (part, rest)
        | outer :: around => readSet s steps (outer.add part.set part.depth) around rest
    | '&' :: '&' :: rest => readSet s steps (o.operate s .inter) around rest
    | '-' :: '-' :: rest => readSet s steps (o.operate s .diff) around rest
    | '~' :: '~' :: rest => readSet s steps (o.operate s .symmDiff) around rest
    | rest =>
      match readRange s rest with
      | none => none
      | some (set, rest) => readSet s steps (o.add set 0) around rest

def readBrackets (s : Settings) (cs : List Char) : Option (SetPart × List Char) := do
  let (o, rest) ← readSetStart s cs
  readSet s (rest.length + 1) o [] rest

end TrafficPolicy.Regex
