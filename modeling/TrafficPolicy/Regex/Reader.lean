import TrafficPolicy.Number.Numeral
import TrafficPolicy.Regex.Bracket

/-!
# Reading regular expressions

The reader goes through the text once with a stack of open groups. A text that is no expression gives
`none`; which of its faults is found first is not recorded. Settings such as ignoring case hold to the
end of the group in which they are made.
-/

namespace TrafficPolicy.Regex

open Unicode (CharSet)

inductive Part where
  /-- An expression, and how deep its parts lie inside each other as they are written. -/
  | node (body : Node) (depth : Nat)
  | settings

namespace Part

def body : Part → Node
  | .node body _ => body
  | .settings => .empty

def depth : Part → Nat
  | .node _ depth => depth
  | .settings => 0

def deepest (parts : List Part) : Nat :=
  (parts.map depth).foldl max 0

/-- Parts one after the other; several parts make a level of their own. -/
def concat : List Part → Part
  | [] => .node .empty 0
  | [part] => part
  | parts => .node (.concat (parts.map body)) (deepest parts + 1)

/-- A choice of parts; several parts make a level of their own. -/
def alternate : List Part → Part
  | [part] => part
  | parts => .node (.alternate (parts.map body)) (deepest parts + 1)

end Part

/-! ## Groups and repetitions -/

structure Frame where
  /-- The index of a group that records. -/
  index : Option Nat
  /-- The settings to go back to when the group is closed. -/
  outer : Settings
  /-- The alternatives that are complete, the last one first. -/
  alternatives : List Part := []
  /-- The parts of the current alternative, the last one first. -/
  parts : List Part := []

/-- The alternative that is being read. -/
def Frame.current (f : Frame) : Part :=
  .concat f.parts.reverse

def Frame.content (f : Frame) : Part :=
  .alternate (f.current :: f.alternatives).reverse

def Frame.group (f : Frame) : Part :=
  let content := f.content
  let body := match f.index with
    | none => content.body
    | some index => .capture index content.body
  .node body (content.depth + 1)

/-- A place in the text with the groups that are open there. -/
structure Progress where
  settings : Settings := {}
  /-- The innermost open group. -/
  frame : Frame := { index := none, outer := {} }
  /-- The groups around it. -/
  around : List Frame := []
  groups : Nat := 0
  names : List (String × Nat) := []

def Progress.push (p : Progress) (part : Part) : Progress :=
  { p with frame := { p.frame with parts := part :: p.frame.parts } }

/-- Adds an expression without parts of its own. -/
def Progress.leaf (p : Progress) (node : Node) : Progress :=
  p.push (.node node 0)

def Progress.endAlternative (p : Progress) : Progress :=
  { p with frame := { p.frame with
    alternatives := p.frame.current :: p.frame.alternatives, parts := [] } }

def Progress.openGroup (p : Progress) (index : Option Nat) (inner : Settings) : Option Progress :=
  if maxDepth ≤ p.around.length then none
  else
    some { p with
      settings := inner
      frame := { index, outer := p.settings }
      around := p.frame :: p.around }

def Progress.closeGroup (p : Progress) : Option Progress :=
  match p.around with
  | [] => none
  | frame :: around =>
    let part := p.frame.group
    if maxDepth < part.depth then none
    else some (Progress.push { p with settings := p.frame.outer, frame, around } part)

/-- Puts the last part of the current alternative under a repetition. -/
def Progress.repeat? (p : Progress) (least : Nat) (most : Option Nat) (lazily : Bool) :
    Option Progress :=
  match p.frame.parts with
  | .node body depth :: parts =>
    if maxDepth ≤ depth then none
    else
      let part := Part.node (body.repeated least most (lazily == p.settings.swapGreed)) (depth + 1)
      some { p with frame := { p.frame with parts := part :: parts } }
  | _ => none

/-- Letters and digits that names of groups may hold, too, although later versions of the standard have
given them their code points. -/
def laterLetterSet : CharSet := Unicode.rangesOf
  [ "88F C5C CDC A7CE-A7CF A7D2 A7D4 A7F1 10940-10959 10EC5-10EC7 10EFA-10EFB 11B60-11B67",
    "11DB0-11DDB 16EA0-16EB8 16EBB-16ED3 16FF2-16FF6 187F8-187FF 18D09-18D1E 18D80-18DF2",
    "1E6C0-1E6DE 1E6E0-1E6F5 1E6FE-1E6FF 2B73A-2B73F 2CEA2-2CEAD 323B0-33479" ]

/-- Digits of later versions of the standard. -/
def laterDigitSet : CharSet := Unicode.rangesOf ["11DE0-11DE9"]

def isNameChar (first : Bool) (c : Char) : Bool :=
  if first then c == '_' || Unicode.alphabeticSet.contains c || laterLetterSet.contains c
  else
    c == '_' || c == '.' || c == '[' || c == ']' || Unicode.alphanumericSet.contains c ||
      laterLetterSet.contains c || laterDigitSet.contains c

/-- Reads the name of a group up to the closing angle. -/
def readName (cs : List Char) : Option (String × List Char) :=
  let name := cs.takeWhile (· != '>')
  match name, cs.dropWhile (· != '>') with
  | c :: more, _ :: rest =>
    if isNameChar true c && more.all (isNameChar false) then some (String.ofList name, rest) else none
  | _, _ => none

/-- The settings that a list of letters makes. After a hyphen settings are taken back. Each letter and
the hyphen may stand once, and a letter has to follow the hyphen. -/
def readSettings (s : Settings) (seen : List Char) (negated : Bool) :
    List Char → Option (Settings × List Char)
  | [] => none
  | c :: cs =>
    if c = ':' ∨ c = ')' then
      if seen.head? = some '-' then none else some (s, c :: cs)
    else if seen.contains c then none
    else
      match c with
      | '-' => readSettings s (c :: seen) true cs
      | 'i' => readSettings { s with ignoreCase := !negated } (c :: seen) negated cs
      | 'm' => readSettings { s with multiLine := !negated } (c :: seen) negated cs
      | 's' => readSettings { s with dotAll := !negated } (c :: seen) negated cs
      | 'U' => readSettings { s with swapGreed := !negated } (c :: seen) negated cs
      | 'u' => readSettings { s with unicode := !negated } (c :: seen) negated cs
      | 'R' => readSettings { s with returns := !negated } (c :: seen) negated cs
      | 'x' => readSettings { s with verbose := !negated } (c :: seen) negated cs
      | _ => none

/-- Reads what stands after an opening parenthesis: a group that is opened, or settings. -/
def readGroup (p : Progress) (cs : List Char) : Option (Progress × List Char) :=
  let cs := p.settings.skip cs
  let named (rest : List Char) : Option (Progress × List Char) := do
    let (name, rest) ← readName rest
    let index := p.groups + 1
    if (p.names.lookup name).isSome then none
    else
      let p' ← { p with groups := index, names := p.names ++ [(name, index)] }.openGroup index p.settings
      return (p', rest)
  match cs with
  | '?' :: '=' :: _ => none
  | '?' :: '!' :: _ => none
  | '?' :: '<' :: '=' :: _ => none
  | '?' :: '<' :: '!' :: _ => none
  | '?' :: 'P' :: '<' :: rest => named rest
  | '?' :: '<' :: rest => named rest
  | '?' :: flags => do
    let (inner, rest) ← readSettings p.settings [] false flags
    match rest with
    | ')' :: rest =>
      if rest.length + 1 = flags.length then none
      else return ({ p with settings := inner }.push .settings, rest)
    | _ :: rest => do
      let p' ← p.openGroup none inner
      return (p', rest)
    | [] => none
  | _ => do
    let index := p.groups + 1
    let p' ← { p with groups := index }.openGroup index p.settings
    return (p', cs)

/-- Takes decimal digits, where blanks may stand between them if they are allowed at all. Every step
takes a character, so the length of the text bounds their number. -/
def takeDigits (s : Settings) : Nat → List Char → List Char × List Char
  | 0, cs => ([], cs)
  | steps + 1, cs =>
    match cs with
    | [] => ([], [])
    | c :: rest =>
      if c.isDigit then
        let (digits, rest) := takeDigits s steps (s.skip rest)
        (c :: digits, rest)
      else ([], c :: rest)

/-- Drops blanks, and comments that follow them where these are allowed. -/
def dropBlanks (s : Settings) (cs : List Char) : List Char :=
  match cs with
  | c :: rest => if Text.isBlank c then (s.skip rest).dropWhile Text.isBlank else cs
  | [] => []

/-- Reads a decimal number of a repetition, which may have blanks around it. -/
def readCount (s : Settings) (cs : List Char) : Option (Nat × List Char) :=
  let cs := cs.dropWhile Text.isBlank
  let (digits, rest) := takeDigits s cs.length cs
  let n := Number.digitsValue 0 digits
  if digits.isEmpty || 0x100000000 ≤ n then none else some (n, dropBlanks s rest)

def readCounts (s : Settings) (cs : List Char) : Option (Nat × Option Nat × List Char) := do
  let (least, rest) ← readCount s (s.skip cs)
  match rest with
  | '\x7d' :: rest => return (least, some least, rest)
  | ',' :: rest =>
    match s.skip rest with
    | '\x7d' :: rest => return (least, none, rest)
    | rest => do
      let (most, rest) ← readCount s rest
      match rest with
      | '\x7d' :: rest => if least ≤ most then some (least, some most, rest) else none
      | _ => none
  | _ => none

/-- Takes the mark of a repetition that prefers fewer copies. -/
def takeLazy : List Char → Bool × List Char
  | '?' :: rest => (true, rest)
  | cs => (false, cs)

/-! ## Single parts -/

def Settings.literal (s : Settings) (c : Char) : Node :=
  .ofSet (s.fold (.single c))

/-- The place before or after a line, or before or after the text. -/
def Settings.startLook (s : Settings) : Look :=
  if s.multiLine then if s.returns then .lineStartReturn else .lineStart else .textStart

def Settings.endLook (s : Settings) : Look :=
  if s.multiLine then if s.returns then .lineEndReturn else .lineEnd else .textEnd

/-- Any character, or any but the ends of lines. -/
def Settings.dot? (s : Settings) : Option CharSet :=
  if !s.unicode then none
  else if s.dotAll then some .full
  else if s.returns then some (CharSet.ofList ['\n', '\r']).complement
  else some (CharSet.single '\n').complement

def readPart (p : Progress) (c : Char) (cs : List Char) : Option (Progress × List Char) :=
  let s := p.settings
  let counted (least : Nat) (most : Option Nat) : Option (Progress × List Char) := do
    let (lazily, rest) := takeLazy cs
    let p ← p.repeat? least most lazily
    return (p, rest)
  match c with
  | '(' => readGroup p cs
  | ')' => p.closeGroup.map (·, cs)
  | '|' => some (p.endAlternative, cs)
  | '[' => do
    let (part, rest) ← readBrackets s cs
    return (p.push (.node (.ofSet part.set) part.depth), rest)
  | '?' => counted 0 (some 1)
  | '*' => counted 0 none
  | '+' => counted 1 none
  | '\x7b' => do
    let (least, most, rest) ← readCounts s cs
    let (lazily, rest) := takeLazy (s.skip rest)
    let p ← p.repeat? least most lazily
    return (p, rest)
  | '\\' => do
    let (atom, rest) ← readEscape s cs
    match atom with
    | .literal c => return (p.leaf (s.literal c), rest)
    | .set set => return (p.leaf (.ofSet set), rest)
    | .look condition => return (p.leaf (.look condition), rest)
  | '.' => s.dot?.map fun set => (p.leaf (.chars set), cs)
  | '^' => some (p.leaf (.look s.startLook), cs)
  | '$' => some (p.leaf (.look s.endLook), cs)
  | _ => some (p.leaf (s.literal c), cs)

/-- Reads all parts of an expression. Every step takes a character, so the length of the text bounds
their number. -/
def readParts : Nat → Progress → List Char → Option Progress
  | 0, p, _ => some p
  | steps + 1, p, cs =>
    match p.settings.skip cs with
    | [] => some p
    | c :: cs =>
      match readPart p c cs with
      | none => none
      | some (p, rest) => readParts steps p rest

def Expression.read? (source : String) : Option Expression := do
  let cs := source.toList
  let p ← readParts (cs.length + 1) {} cs
  let content := p.frame.content
  if p.around.isEmpty && content.depth ≤ maxDepth then
    some { source, body := content.body, groups := p.groups, names := p.names }
  else none

end TrafficPolicy.Regex
