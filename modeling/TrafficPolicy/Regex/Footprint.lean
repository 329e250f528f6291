import Std.Data.HashMap
import TrafficPolicy.Regex.Bytes

/-!
# How much memory an expression takes

An expression is refused if the tables for its search need more memory than a limit: a table of states
that read a text byte by byte from the front, and one that reads it from the back. A state takes 32
bytes, a transition that is listed with a state 8 bytes, and a way out of a fork 4 bytes. Nothing else
is kept of the tables here: states are numbered in the order in which they are made, and sets of
characters share the states that they find again in a cache of limited size, so the numbers matter.
-/

namespace TrafficPolicy.Regex

open Unicode (CharSet)

/-- The memory that one table may take, in bytes. -/
def sizeLimit : Nat := 10485760

structure Table where
  states : Nat := 0
  /-- The bytes of the lists of transitions and of the ways out of forks. -/
  lists : Nat := 0
deriving DecidableEq, Repr

namespace Table

def checked (t : Table) : Option Table :=
  if 32 * t.states + t.lists ≤ sizeLimit then some t else none

def add (t : Table) (bytes : Nat) : Option Table :=
  checked { states := t.states + 1, lists := t.lists + bytes }

def addMany (t : Table) (states : Nat) : Option Table :=
  checked { t with states := t.states + states }

/-- Adds ways out of forks. -/
def fork (t : Table) (ways : Nat) : Option Table :=
  checked { t with lists := t.lists + 4 * ways }

/-- Leads on from the last state of a fragment, which costs a way out if that state is a fork. -/
def lead (t : Table) (isFork : Bool) : Option Table :=
  if isFork then t.fork 1 else some t

end Table

/-- A table after a fragment has been added, and whether the last state of the fragment is a fork. -/
structure Fragment where
  table : Table
  isFork : Bool

/-! ## Sets of characters -/

structure Transition where
  first : Nat
  last : Nat
  target : Nat
deriving DecidableEq, Repr

/-- A mixture of numbers, to spread the entries of a cache. -/
def mix (numbers : List Nat) : UInt64 :=
  numbers.foldl (fun h n => (h ^^^ n.toUInt64) * 0x100000001b3) 0xcbf29ce484222325

/-- States that have been made, by their place in a cache of limited size. A state is forgotten when
another one takes its place. -/
abbrev Cache (α : Type) := Std.HashMap Nat (α × Nat)

def Cache.find? {α : Type} [DecidableEq α] (cache : Cache α) (place : Nat) (key : α) : Option Nat :=
  match cache[place]? with
  | some (key', state) => if key = key' then some state else none
  | none => none

/-- A table with the states of a set that is read from the front. -/
structure Forward where
  table : Table
  cache : Cache (List Transition) := {}

def forwardPlaces : Nat := 10000

/-- The number of a state with given transitions; it is made if the cache does not have it. -/
def Forward.state (f : Forward) (transitions : List Transition) : Option (Nat × Forward) :=
  let numbers := transitions.flatMap fun t => [t.first, t.last, t.target]
  let place := (mix numbers).toNat % forwardPlaces
  match f.cache.find? place transitions with
  | some state => some (state, f)
  | none => do
    let table ← f.table.add (8 * transitions.length)
    return (f.table.states, { table, cache := f.cache.insert place (transitions, f.table.states) })

/-- A state whose transitions are not complete: those that are, and the byte range of the open one. -/
structure OpenState where
  transitions : List Transition := []
  range : Nat × Nat

def OpenState.complete (o : OpenState) (target : Nat) : List Transition :=
  o.transitions ++ [⟨o.range.1, o.range.2, target⟩]

/-- Makes the states of an open path, the last one first. Gives the number of the first state, or of
the one where a character ends if there are none. -/
def Forward.close (finish : Nat) (f : Forward) : List OpenState → Option (Nat × Forward)
  | [] => some (finish, f)
  | o :: rest => do
    let (target, f) ← f.close finish rest
    f.state (o.complete target)

/-- Adds a sequence of byte ranges, each of which begins a path below the one before, to the open path.
The part that both have in common stays open; what comes after it is made. -/
def Forward.addSequence (finish : Nat) (f : Forward) :
    List OpenState → List (Nat × Nat) → Option (List OpenState × Forward)
  | o :: path, range :: ranges =>
    if o.range = range ∧ ranges ≠ [] then do
      let (path, f) ← f.addSequence finish path ranges
      return (o :: path, f)
    else do
      let (target, f) ← f.close finish path
      return ({ transitions := o.complete target, range } :: ranges.map fun range => { range }, f)
  | _, ranges => some (ranges.map fun range => { range }, f)

def Forward.addSequences (finish : Nat) (f : Forward) (path : List OpenState) :
    List (List (Nat × Nat)) → Option (List OpenState × Forward)
  | [] => some (path, f)
  | ranges :: rest =>
    match f.addSequence finish path ranges with
    | none => none
    | some (path, f) => f.addSequences finish path rest

def forwardSet (sequences : List (List (Nat × Nat))) (t : Table) : Option Table := do
  let finish := t.states
  let table ← t.add 0
  let (path, f) ← Forward.addSequences finish { table } [] sequences
  let (_, f) ← f.close finish path
  return f.table

structure Backward where
  table : Table
  cache : Cache (Nat × Nat × Nat) := {}

def backwardPlaces : Nat := 1000

/-- Adds the states for byte ranges, the first of which leads to `target`. -/
def Backward.addSequence (target : Nat) (b : Backward) : List (Nat × Nat) → Option Backward
  | [] => some b
  | (first, last) :: rest =>
    let place := (mix [target, first, last]).toNat % backwardPlaces
    match b.cache.find? place (target, first, last) with
    | some state => b.addSequence state rest
    | none =>
      match b.table.add 0 with
      | none => none
      | some table =>
        let state := b.table.states
        Backward.addSequence state
          { table, cache := b.cache.insert place ((target, first, last), state) } rest

def Backward.addSequences (finish : Nat) (b : Backward) : List (List (Nat × Nat)) → Option Backward
  | [] => some b
  | ranges :: rest =>
    match b.addSequence finish ranges with
    | none => none
    | some b =>
      match b.table.fork 1 with
      | none => none
      | some table => Backward.addSequences finish { b with table } rest

def backwardSet (sequences : List (List (Nat × Nat))) (t : Table) : Option Table := do
  let table ← t.add 0
  let finish := table.states
  let table ← table.add 0
  let b ← Backward.addSequences finish { table } sequences
  return b.table

def addSet (backward : Bool) (set : CharSet) (t : Table) : Option Table :=
  if set.isAscii then do
    let t ← t.add 0
    t.add (8 * set.ranges.length)
  else if backward then backwardSet (sequencesOf set) t
  else forwardSet (sequencesOf set) t

/-! ## Choices between texts -/

/-- Puts a word into the group of its first byte. -/
def groupWord (byte : Nat) (word : List Nat) :
    List (Nat × List (List Nat)) → List (Nat × List (List Nat))
  | [] => [(byte, [word])]
  | (byte', words) :: rest =>
    if byte = byte' then (byte', word :: words) :: rest else (byte', words) :: groupWord byte word rest

/-- What is left of some words after their first bytes, by first byte, in the order of the words. -/
def groupWords (words : List (List Nat)) : List (Nat × List (List Nat)) :=
  (words.foldr (fun word groups => match word with
    | [] => groups
    | byte :: word => groupWord byte word groups) [])

/-- Cuts a list of words at the empty ones: the words before, between and after them. -/
def cutAtEmpty : List (List Nat) → List (List (List Nat))
  | [] => [[]]
  | [] :: words => [] :: cutAtEmpty words
  | word :: words =>
    match cutAtEmpty words with
    | [] => [[word]]
    | front :: rest => (word :: front) :: rest

/-- Empty words at the start count once. -/
def dropRepeatedEmpty : List (List Nat) → List (List Nat)
  | [] :: [] :: words => dropRepeatedEmpty ([] :: words)
  | words => words

/-- The states of a tree of words below one of its nodes. An empty word ends at the node; words before
and after it have transitions of their own. A step takes the first byte of each word, so the length of
the longest word bounds their number. -/
def addWords : Nat → List (List Nat) → Table → Option Table
  | 0, _, t => some t
  | steps + 1, words, t => do
    let pieces := cutAtEmpty (dropRepeatedEmpty words)
    let t ← pieces.foldlM (fun t piece => do
      let groups := groupWords piece
      let t ← groups.foldlM (fun t (_, words) =>
        if words.all (·.isEmpty) then some t else addWords steps words t) t
      match groups.length with
      | 0 => some t
      | 1 => t.add 0
      | n => t.add (8 * n)) t
    t.add (4 * ((pieces.filter fun piece => !piece.isEmpty).length + pieces.length - 1))

def bytesOf (chars : List Char) : List Nat :=
  chars.flatMap fun c => encode c.toNat

def addTexts (backward : Bool) (texts : List (List Char)) (t : Table) : Option Table := do
  let words := texts.map fun chars => if backward then (bytesOf chars).reverse else bytesOf chars
  let t ← t.add 0
  addWords ((words.map List.length).foldl max 0 + 1) words t

/-! ## Expressions -/

/-- Adds `count` fragments one after the other to a fragment. -/
def addCopies (add : Table → Option Fragment) : Nat → Fragment → Option Fragment
  | 0, fragment => some fragment
  | count + 1, fragment =>
    match add fragment.table with
    | none => none
    | some next =>
      match next.table.lead fragment.isFork with
      | none => none
      | some table => addCopies add count { next with table }

def addExactly (add : Table → Option Fragment) (count : Nat) (t : Table) : Option Fragment :=
  match count with
  | 0 => (t.add 0).map fun table => ⟨table, false⟩
  | count + 1 =>
    match add t with
    | none => none
    | some fragment => addCopies add count fragment

/-- Adds `count` fragments that may be left out to a fragment. -/
def addOptional (add : Table → Option Fragment) : Nat → Fragment → Option Fragment
  | 0, fragment => some fragment
  | count + 1, fragment =>
    match fragment.table.add 0 with
    | none => none
    | some table =>
      match add table with
      | none => none
      | some next =>
        match next.table.fork 2 with
        | none => none
        | some table =>
          match table.lead fragment.isFork with
          | none => none
          | some table => addOptional add count { next with table }

/-- Any number of copies of a fragment, at least `least`. Copies of a fragment that may match the empty
text are a repetition of at least one that may be left out. -/
def addUnbounded (add : Table → Option Fragment) (advances : Bool) (least : Nat) (t : Table) :
    Option Fragment := do
  match least with
  | 0 =>
    if advances then
      let t ← t.add 0
      let fragment ← add t
      let t ← fragment.table.fork 1
      let t ← t.lead fragment.isFork
      return ⟨t, true⟩
    else
      let fragment ← add t
      let t ← fragment.table.add 0
      let t ← t.lead fragment.isFork
      let t ← t.addMany 2
      let t ← t.fork 4
      return ⟨t, false⟩
  | 1 =>
    let fragment ← add t
    let t ← fragment.table.add 0
    let t ← t.lead fragment.isFork
    let t ← t.fork 1
    return ⟨t, true⟩
  | least + 1 =>
    let fragment ← addExactly add (least + 1) t
    let t ← fragment.table.add 0
    let t ← t.lead fragment.isFork
    let t ← t.fork 1
    return ⟨t, true⟩

def addMaybe (add : Table → Option Fragment) (t : Table) : Option Fragment := do
  let t ← t.add 0
  let fragment ← add t
  let t ← fragment.table.add 0
  let t ← t.fork 2
  let t ← t.lead fragment.isFork
  return ⟨t, false⟩

def addBounded (add : Table → Option Fragment) (least most : Nat) (t : Table) : Option Fragment :=
  if least = 0 ∧ most = 1 then addMaybe add t
  else if least = most then addExactly add least t
  else do
    let fragment ← addExactly add least t
    let t ← fragment.table.add 0
    let fragment ← addOptional add (most - least) { fragment with table := t }
    let t ← fragment.table.lead fragment.isFork
    return ⟨t, false⟩

/-- One way of a choice: its characters, if it is a text, and how its states are added. -/
structure Way where
  text? : Option (List Char)
  add : Table → Option Fragment

/-- Adds the ways of a choice beyond the first two. -/
def addMoreWays : List Way → Table → Option Table
  | [], t => some t
  | way :: ways, t =>
    match way.add t with
    | none => none
    | some fragment =>
      match fragment.table.fork 1 with
      | none => none
      | some t =>
        match t.lead fragment.isFork with
        | none => none
        | some t => addMoreWays ways t

/-- The states of a choice. A choice between texts shares the states of what they begin with. -/
def addChoice (backward : Bool) (ways : List Way) (t : Table) : Option Fragment :=
  match ways with
  | [] => (t.add 0).map fun t => ⟨t, false⟩
  | [way] => way.add t
  | first :: second :: rest =>
    match ways.mapM Way.text? with
    | some texts => (addTexts backward texts t).map fun t => ⟨t, false⟩
    | none => do
      let first ← first.add t
      let second ← second.add first.table
      let t ← second.table.addMany 2
      let t ← t.fork 2
      let t ← t.lead first.isFork
      let t ← t.lead second.isFork
      let t ← addMoreWays rest t
      return ⟨t, false⟩

def addBoth (first second : Table → Option Fragment) (t : Table) : Option Fragment := do
  let fragment ← first t
  let last ← second fragment.table
  let t ← last.table.lead fragment.isFork
  return ⟨t, last.isFork⟩

/-- A fragment between the two states that record its ends. -/
def addRecorded (add : Table → Option Fragment) (t : Table) : Option Fragment := do
  let t ← t.add 0
  let fragment ← add t
  let t ← fragment.table.add 0
  let t ← t.lead fragment.isFork
  return ⟨t, false⟩

namespace Node

/-- The ways of an expression, which is one way unless it is a choice. Tables for reading from the back
record nothing. -/
def addWays (backward : Bool) : Node → List Way
  | .empty => [⟨none, fun t => (t.add 0).map (⟨·, false⟩)⟩]
  | .text word => [⟨some word, fun t => (t.addMany (textLength word)).map (⟨·, false⟩)⟩]
  | .chars set => [⟨none, fun t => (addSet backward set t).map (⟨·, false⟩)⟩]
  | .look _ => [⟨none, fun t => (t.add 0).map (⟨·, false⟩)⟩]
  | .capture _ body =>
    let add := addChoice backward (body.addWays backward)
    [⟨none, if backward then add else addRecorded add⟩]
  | .cat first rest =>
    let first := addChoice backward (first.addWays backward)
    let rest := addChoice backward (rest.addWays backward)
    [⟨none, if backward then addBoth rest first else addBoth first rest⟩]
  | .alt first rest =>
    ⟨first.text?, addChoice backward (first.addWays backward)⟩ :: rest.addWays backward
  | .rep body least most _ =>
    let add := addChoice backward (body.addWays backward)
    [⟨none, match most with
      | some most => addBounded add least most
      | none => addUnbounded add body.mustAdvance least⟩]

/-- The table for an expression. Unless every match is known to touch the end of the text that is read
first, any bytes may come before a match. -/
def table? (backward : Bool) (body : Node) : Option Table := do
  let add := addChoice backward (body.addWays backward)
  let anchored := if backward then body.endsWith .textEnd else body.beginsWith .textStart
  let t ← if anchored then Table.add {} 0 else do
    let t ← Table.addMany {} 3
    Table.checked { t with lists := t.lists + 8 + 4 + 4 }
  let fragment ← if backward then add t else addRecorded add t
  let t ← fragment.table.add 0
  t.lead fragment.isFork

/-- Whether an expression is a choice between so many texts that it is looked up as a list of words, for
which no tables are made. -/
def isWordList : Node → Bool
  | .alt first rest =>
    let ways := first :: rest.ways
    3000 ≤ ways.length && ways.all fun way => way.text?.isSome
  | _ => false

def fits (body : Node) : Bool :=
  body.isWordList || ((body.table? false).isSome && (body.table? true).isSome)

end Node

end TrafficPolicy.Regex
