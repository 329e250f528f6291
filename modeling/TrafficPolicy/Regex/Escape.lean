import TrafficPolicy.Regex.Settings
import TrafficPolicy.Regex.Syntax

/-!
# Escapes

What stands after a backslash: a character by its code point or its letter, a set of characters by a
letter or a name, or a condition on a place. Where blanks are allowed they may also stand between the
characters of a longer escape.
-/

namespace TrafficPolicy.Regex

open Unicode (CharSet)

inductive Atom where
  | literal (c : Char)
  | set (s : CharSet)
  | look (condition : Look)

/-- Characters with a meaning of their own. -/
def isMeta (c : Char) : Bool :=
  "\\.+*?()|[]\x7b\x7d^$#&-~".toList.contains c

/-- The text with a backslash before each character with a meaning of its own. -/
def escape (text : List Char) : List Char :=
  text.flatMap fun c => if isMeta c then ['\\', c] else [c]

/-- Whether a backslash may stand before a character that needs none. -/
def isEscapable (c : Char) : Bool :=
  isMeta c || (c.toNat < 128 && !c.isAlphanum && c != '<' && c != '>')

def hexDigit? (c : Char) : Option Nat :=
  if c.isDigit then some (c.toNat - '0'.toNat)
  else if 'a' ≤ c ∧ c ≤ 'f' then some (c.toNat - 'a'.toNat + 10)
  else if 'A' ≤ c ∧ c ≤ 'F' then some (c.toNat - 'A'.toNat + 10)
  else none

def charOf? (n : Nat) : Option Char :=
  if n.isValidChar then some (Char.ofNat n) else none

/-- The characters up to the closing brace, without the blanks and comments that are allowed between
them, and what stands after the brace. Every step takes a character, so the length of the text bounds
their number. -/
def takeBraced (s : Settings) : Nat → List Char → Option (List Char × List Char)
  | 0, _ => none
  | steps + 1, cs =>
    match s.skip cs with
    | [] => none
    | '\x7d' :: rest => some ([], rest)
    | c :: rest => (takeBraced s steps rest).map fun (inside, rest) => (c :: inside, rest)

def takeHex (s : Settings) : Nat → Nat → List Char → Option (Nat × List Char)
  | 0, value, cs => some (value, cs)
  | count + 1, value, c :: cs => do
    let d ← hexDigit? c
    takeHex s count (16 * value + d) (if count = 0 then cs else s.skip cs)
  | _ + 1, _, [] => none

/-- A code point after the letter of an escape, in braces or as `count` digits. Two digits stand for a
byte, which without Unicode has to be ASCII. -/
def readHex (s : Settings) (count : Nat) (cs : List Char) : Option (Char × List Char) :=
  match s.skip cs with
  | '\x7b' :: cs => do
    let (digits, rest) ← takeBraced s (cs.length + 1) cs
    let digits ← digits.mapM hexDigit?
    if digits.isEmpty then none
    else
      let c ← charOf? (digits.foldl (fun n d => 16 * n + d) 0)
      return (c, rest)
  | cs => do
    let (value, rest) ← takeHex s count 0 cs
    let c ← charOf? value
    if count = 2 ∧ !s.unicode ∧ 128 ≤ value then none else return (c, rest)

/-- Takes letters and hyphens, also with blanks between them. Every step takes a character, so the
length of the text bounds their number. -/
def takeBoundaryName (s : Settings) : Nat → List Char → List Char × List Char
  | 0, cs => ([], cs)
  | steps + 1, cs =>
    match cs with
    | [] => ([], [])
    | c :: rest =>
      if c.isAlpha || c == '-' then
        let (name, rest) := takeBoundaryName s steps (s.skip rest)
        (c :: name, rest)
      else ([], c :: rest)

/-- The condition named in the braces after `\b`. If the braces do not begin with a name they are not
part of the escape. -/
def readBoundary (s : Settings) (cs : List Char) : Option (Look × List Char) :=
  match cs with
  | '\x7b' :: inside =>
    match s.skip inside with
    | [] => none
    | inside =>
      match takeBoundaryName s inside.length inside with
      | ([], _) => some (.wordBoundary !s.unicode, cs)
      | (name, '\x7d' :: rest) =>
        match String.ofList name with
        | "start" => some (.wordStart !s.unicode, rest)
        | "end" => some (.wordEnd !s.unicode, rest)
        | "start-half" => some (.wordStartHalf !s.unicode, rest)
        | "end-half" => some (.wordEndHalf !s.unicode, rest)
        | _ => none
      | _ => none
  | _ => some (.wordBoundary !s.unicode, cs)

/-- Reads the name of a property: one character, or a name in braces. -/
def readProperty (s : Settings) (negated : Bool) (cs : List Char) : Option (CharSet × List Char) :=
  if !s.unicode then none
  else
    match s.skip cs with
    | '\x7b' :: inside => do
      let (name, rest) ← takeBraced s (inside.length + 1) inside
      let (different, set) ← namedSet? name
      let set ← s.negate? (different != negated) (s.fold set)
      return (set, rest)
    | name :: rest => do
      if name = '\\' then none
      else
        let set ← Unicode.propertySet? (String.singleton name)
        let set ← s.negate? negated (s.fold set)
        return (set, rest)
    | [] => none

def readEscape (s : Settings) : List Char → Option (Atom × List Char)
  | [] => none
  | c :: cs =>
    let literal (p : Char × List Char) : Atom × List Char := (.literal p.1, p.2)
    let look (p : Look × List Char) : Atom × List Char := (.look p.1, p.2)
    let set (p : CharSet × List Char) : Atom × List Char := (.set p.1, p.2)
    if c.isDigit then none
    else if "dDsSwW".toList.contains c then (s.letterSet? c).map fun letters => set (letters, cs)
    else if isMeta c || isEscapable c then some (.literal c, cs)
    else
      match c with
      | 'x' => (readHex s 2 cs).map literal
      | 'u' => (readHex s 4 cs).map literal
      | 'U' => (readHex s 8 cs).map literal
      | 'p' => (readProperty s false cs).map set
      | 'P' => (readProperty s true cs).map set
      | 'a' => some (.literal '\x07', cs)
      | 'f' => some (.literal '\x0C', cs)
      | 't' => some (.literal '\t', cs)
      | 'n' => some (.literal '\n', cs)
      | 'r' => some (.literal '\r', cs)
      | 'v' => some (.literal '\x0B', cs)
      | 'A' => some (.look .textStart, cs)
      | 'z' => some (.look .textEnd, cs)
      | 'b' => (readBoundary s cs).map look
      | 'B' => some (.look (.notWordBoundary !s.unicode), cs)
      | '<' => some (.look (.wordStart !s.unicode), cs)
      | '>' => some (.look (.wordEnd !s.unicode), cs)
      | _ => none

end TrafficPolicy.Regex
