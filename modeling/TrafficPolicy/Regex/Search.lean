import TrafficPolicy.Regex.Program
import TrafficPolicy.Unicode.Letter

/-!
# Searching a text

All ways to run the program are followed at once, in the order of preference, one character at a
time. Of several ways that have come to the same instruction only the most preferred one is kept, so
the search ends after one pass over the text. The match found is the one that starts first and, of
those, the most preferred one.
-/

namespace TrafficPolicy.Regex

/-- The places recorded so far, by slot. -/
abbrev Slots := Array (Option Nat)

def isWordChar (ascii : Bool) (c : Char) : Bool :=
  if ascii then c.isAlphanum || c == '_' else Unicode.wordSet.contains c

def Look.holds (condition : Look) (before after : Option Char) : Bool :=
  let word (ascii : Bool) (c : Option Char) : Bool := c.any (isWordChar ascii)
  match condition with
  | .textStart => before.isNone
  | .textEnd => after.isNone
  | .lineStart => before.isNone || before == some '\n'
  | .lineEnd => after.isNone || after == some '\n'
  | .lineStartReturn =>
    before.isNone || before == some '\n' || (before == some '\r' && after != some '\n')
  | .lineEndReturn =>
    after.isNone || after == some '\r' || (after == some '\n' && before != some '\r')
  | .wordBoundary ascii => word ascii before != word ascii after
  | .notWordBoundary ascii => word ascii before == word ascii after
  | .wordStart ascii => !word ascii before && word ascii after
  | .wordEnd ascii => word ascii before && !word ascii after
  | .wordStartHalf ascii => !word ascii before
  | .wordEndHalf ascii => !word ascii after

/-- One way to run the program: the instruction it has come to and the places it has recorded. -/
structure Thread where
  place : Nat
  slots : Slots

/-- The ways that wait for a character, the least preferred one first, and for each instruction the step
at which a way has come to it last. -/
structure Threads where
  waiting : List Thread := []
  seen : Array Nat

/-- Follows the ways in `todo`, the preferred one first, to where they wait for a character or
accept. Each step visits an instruction for the first time or drops a way. The text is at the place
`at_`, where step `at_ + 1` of the search is made. -/
def follow (program : Program) (before after : Option Char) (at_ : Nat) :
    Nat → List Thread → Threads → Threads
  | 0, _, ts => ts
  | _, [], ts => ts
  | steps + 1, t :: todo, ts =>
    if ts.seen.getD t.place 0 = at_ + 1 then follow program before after at_ steps todo ts
    else
      let ts := { ts with seen := ts.seen.setIfInBounds t.place (at_ + 1) }
      match program[t.place]? with
      | none => follow program before after at_ steps todo ts
      | some instruction =>
        match instruction with
        | .char _ | .take _ | .accept =>
          follow program before after at_ steps todo { ts with waiting := t :: ts.waiting }
        | .require condition =>
          if condition.holds before after then
            follow program before after at_ steps ({ t with place := t.place + 1 } :: todo) ts
          else follow program before after at_ steps todo ts
        | .record slot =>
          follow program before after at_ steps
            (⟨t.place + 1, t.slots.setIfInBounds slot (some at_)⟩ :: todo) ts
        | .fork preferred other =>
          follow program before after at_ steps
            ({ t with place := preferred } :: { t with place := other } :: todo) ts
        | .jump target => follow program before after at_ steps ({ t with place := target } :: todo) ts

def Instruction.takes (i : Instruction) (c : Option Char) : Bool :=
  match i with
  | .char c' => c == some c'
  | .take set => c.any set.contains
  | _ => false

/-- Takes a character on all ways up to the first that accepts. Gives the ways that go on, the
preferred one first, and the slots of the way that accepts; `going` are those that have been found to go
on, the preferred one last. -/
def advance (program : Program) (c : Option Char) (going : List Thread) :
    List Thread → List Thread × Option Slots
  | [] => (going.reverse, none)
  | t :: rest =>
    match program[t.place]? with
    | some .accept => (going.reverse, some t.slots)
    | some instruction =>
      if instruction.takes c then advance program c ({ t with place := t.place + 1 } :: going) rest
      else advance program c going rest
    | none => advance program c going rest

/-- The ways that wait at a place; a new one starts there while there is no match. -/
def waitingAt (program : Program) (slotCount : Nat) (before after : Option Char) (at_ : Nat)
    (going : List Thread) (found : Option Slots) (seen : Array Nat) : Threads :=
  let starting : List Thread :=
    if found.isSome then [] else [⟨0, Array.replicate slotCount none⟩]
  follow program before after at_ (4 * program.size + 4 + going.length) (going ++ starting) { seen }

/-- Goes on with the search in the text from a place on. `going` are the ways that have taken the
characters before it, and `found` is the best match so far. -/
def searchFrom (program : Program) (slotCount : Nat) (before : Option Char) (at_ : Nat)
    (going : List Thread) (found : Option Slots) (seen : Array Nat) : List Char → Option Slots
  | [] =>
    let ts := waitingAt program slotCount before none at_ going found seen
    let (_, accepted) := advance program none [] ts.waiting.reverse
    accepted <|> found
  | c :: rest =>
    let ts := waitingAt program slotCount before (some c) at_ going found seen
    let (going, accepted) := advance program (some c) [] ts.waiting.reverse
    let found := accepted <|> found
    if going.isEmpty && found.isSome then found
    else searchFrom program slotCount (some c) (at_ + 1) going found ts.seen rest

/-- The slots of the first match in what is left of a text, which is `text` from the place `start` on;
`before` is the character before it. -/
def Expression.search? (e : Expression) (program : Program) (before : Option Char) (start : Nat)
    (text : List Char) : Option Slots :=
  searchFrom program (2 * (e.groups + 1)) before start [] none (Array.replicate program.size 0) text

def Expression.isMatch (e : Expression) (text : List Char) : Bool :=
  (e.search? e.program none 0 text).isSome

def span? (slots : Slots) (index : Nat) : Option (Nat × Nat) :=
  match slots.getD (2 * index) none, slots.getD (2 * index + 1) none with
  | some first, some last => some (first, last)
  | _, _ => none

/-- The character before what is left of a text once `count` more characters are taken from it. -/
def charBefore (before : Option Char) (text : List Char) : Nat → Option Char
  | 0 => before
  | count + 1 => text[count]?

/-- All matches in what is left of a text, none of which overlap. An empty match does not touch the end of
the match before it. `steps` bounds their number. -/
def matchesFrom (e : Expression) (program : Program) :
    (steps : Nat) → (before : Option Char) → (start : Nat) → List Char → (lastEnd : Option Nat) →
      List Slots
  | 0, _, _, _, _ => []
  | steps + 1, before, start, text, lastEnd =>
    match e.search? program before start text with
    | none => []
    | some slots =>
      match span? slots 0 with
      | none => []
      | some (first, last) =>
        if first = last ∧ lastEnd = some last then
          match text with
          | [] => []
          | c :: rest => matchesFrom e program steps (some c) (start + 1) rest none
        else
          let taken := last - start
          slots :: matchesFrom e program steps (charBefore before text taken) last (text.drop taken)
            (some last)

def Expression.matches (e : Expression) (text : List Char) : List Slots :=
  matchesFrom e e.program (2 * text.length + 3) none 0 text none

end TrafficPolicy.Regex
