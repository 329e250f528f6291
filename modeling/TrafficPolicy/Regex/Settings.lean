import TrafficPolicy.Text.Blank
import TrafficPolicy.Unicode.Fold
import TrafficPolicy.Unicode.Property

/-!
# Settings of an expression

Settings change how an expression is read, from where they are made to the end of the group. Verbose
expressions may have blanks and comments between their parts.
-/

namespace TrafficPolicy.Regex

open Unicode (CharSet)

structure Settings where
  ignoreCase : Bool := false
  multiLine : Bool := false
  dotAll : Bool := false
  swapGreed : Bool := false
  unicode : Bool := true
  returns : Bool := false
  verbose : Bool := false
deriving DecidableEq, Repr

def skipBlanks (verbose inComment : Bool) : List Char → List Char
  | [] => []
  | c :: cs =>
    if !verbose then c :: cs
    else if inComment then skipBlanks verbose (c != '\n') cs
    else if Text.isBlank c then skipBlanks verbose false cs
    else if c = '#' then skipBlanks verbose true cs
    else c :: cs

/-- The first character that is neither blank nor a number sign before the text of a comment. -/
def solidHead? (passedSign : Bool) : List Char → Option Char
  | [] => none
  | c :: cs =>
    if Text.isBlank c then solidHead? passedSign cs
    else if c = '#' ∧ !passedSign then solidHead? true cs
    else some c

namespace Settings

def skip (s : Settings) (cs : List Char) : List Char :=
  skipBlanks s.verbose false cs

/-- The character that is taken to come next, before it is known whether a hyphen makes a range. The
text of a comment counts here. -/
def peek (s : Settings) (cs : List Char) : Option Char :=
  if s.verbose then solidHead? false cs else cs.head?

/-- The set, closed under letter case if case is ignored. -/
def fold (s : Settings) (set : CharSet) : CharSet :=
  if s.ignoreCase then if s.unicode then set.foldCase else set.foldAsciiCase else set

/-- The complement if it is asked for. Without Unicode a set has ASCII characters only, since the
others are no single bytes. -/
def negate? (s : Settings) (negated : Bool) (set : CharSet) : Option CharSet :=
  let set := if negated then set.complement else set
  if s.unicode || set.isAscii then some set else none

end Settings

/-! ## Sets with a name -/

def asciiDigits : CharSet := .range '0' '9'

def asciiBlanks : CharSet := .ofList ['\t', '\n', '\x0B', '\x0C', '\r', ' ']

def asciiLetters : CharSet := .ofRanges [(0x41, 0x5A), (0x61, 0x7A)]

def asciiWord : CharSet := .ofRanges [(0x30, 0x39), (0x41, 0x5A), (0x5F, 0x5F), (0x61, 0x7A)]

/-- The set that a letter after a backslash stands for. -/
def Settings.letterSet? (s : Settings) (c : Char) : Option CharSet :=
  match c with
  | 'd' => s.negate? false (if s.unicode then Unicode.digitSet else asciiDigits)
  | 'D' => s.negate? true (if s.unicode then Unicode.digitSet else asciiDigits)
  | 's' => s.negate? false (if s.unicode then Unicode.whiteSpaceSet else asciiBlanks)
  | 'S' => s.negate? true (if s.unicode then Unicode.whiteSpaceSet else asciiBlanks)
  | 'w' => s.negate? false (if s.unicode then Unicode.wordSet else asciiWord)
  | 'W' => s.negate? true (if s.unicode then Unicode.wordSet else asciiWord)
  | _ => none

/-- The set of ASCII characters with a name, as in `[:alpha:]`. -/
def asciiSet? (name : String) : Option CharSet :=
  match name with
  | "alnum" => some (asciiLetters.union asciiDigits)
  | "alpha" => some asciiLetters
  | "ascii" => some ⟨[(0, 127)]⟩
  | "blank" => some (.ofList ['\t', ' '])
  | "cntrl" => some (.ofRanges [(0, 31), (127, 127)])
  | "digit" => some asciiDigits
  | "graph" => some ⟨[(33, 126)]⟩
  | "lower" => some (.range 'a' 'z')
  | "print" => some ⟨[(32, 126)]⟩
  | "punct" => some (.ofRanges [(33, 47), (58, 64), (91, 96), (123, 126)])
  | "space" => some asciiBlanks
  | "upper" => some (.range 'A' 'Z')
  | "word" => some asciiWord
  | "xdigit" => some (.ofRanges [(48, 57), (65, 70), (97, 102)])
  | _ => none

/-- The set with the property named in braces, and whether the other characters are meant. A name may
be followed by a value after `!=`, `:` or `=`; the first of these three that occurs at all counts. -/
def namedSet? (text : List Char) : Option (Bool × CharSet) :=
  let value? (key value : List Char) : Option CharSet :=
    Unicode.valueSet? (String.ofList key) (String.ofList value)
  match Text.cutAt? ['!', '='] text with
  | some (key, value) => (value? key value).map (true, ·)
  | none =>
    match Text.cutAt? [':'] text <|> Text.cutAt? ['='] text with
    | some (key, value) => (value? key value).map (false, ·)
    | none => (Unicode.propertySet? (String.ofList text)).map (false, ·)

end TrafficPolicy.Regex
