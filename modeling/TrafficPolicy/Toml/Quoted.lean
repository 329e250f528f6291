import TrafficPolicy.Text.Percent

/-!
# Quoted text of a configuration

Text stands between double quotes, where a backslash begins an escape, or between single quotes, where it
does not. Three quotes open a text that may run over lines: a line break just after them does not count, and
a backslash at the end of a line takes the break and the blanks after it away.
-/

namespace TrafficPolicy.Toml

/-- What a reader takes from the front of a text, and the rest. -/
abbrev Reads (α : Type) := List Char → Option (α × List Char)

def isSpace (c : Char) : Bool := c == ' ' || c == '\t'

def skipSpaces (cs : List Char) : List Char := cs.dropWhile isSpace

/-- The control characters that a text or a comment must not have. -/
def isControl (c : Char) : Bool :=
  (c.toNat < 0x20 && c != '\t') || c.toNat == 0x7F

def afterBreak? : List Char → Option (List Char)
  | '\n' :: cs => some cs
  | '\r' :: '\n' :: cs => some cs
  | _ => none

def charOfDigits? (digits : List Char) : Option Char := do
  let values ← digits.mapM fun c =>
    if c.toNat < 128 then Text.hexValue? (UInt8.ofNat c.toNat) else none
  let n := values.foldl (fun n value => 16 * n + value) 0
  if n.isValidChar then some (Char.ofNat n) else none

/-- The character of an escape without digits. -/
def plainEscape? : Char → Option Char
  | 'b' => some '\x08'
  | 't' => some '\t'
  | 'n' => some '\n'
  | 'f' => some '\x0C'
  | 'r' => some '\r'
  | 'e' => some '\x1B'
  | '"' => some '"'
  | '\\' => some '\\'
  | _ => none

def pushChar (c : Char) (read : Option (List Char × List Char)) :
    Option (List Char × List Char) :=
  read.map fun (text, rest) => (c :: text, rest)

/-- Puts an escaped character, if it is one, in front of what has been read. -/
def pushEscape (c? : Option Char) (read : Option (List Char × List Char)) :
    Option (List Char × List Char) :=
  c?.bind fun c => pushChar c read

def readBasic : Reads (List Char)
  | '"' :: cs => some ([], cs)
  | '\\' :: 'x' :: a :: b :: cs => pushEscape (charOfDigits? [a, b]) (readBasic cs)
  | '\\' :: 'u' :: a :: b :: c :: d :: cs =>
    pushEscape (charOfDigits? [a, b, c, d]) (readBasic cs)
  | '\\' :: 'U' :: a :: b :: c :: d :: e :: f :: g :: h :: cs =>
    pushEscape (charOfDigits? [a, b, c, d, e, f, g, h]) (readBasic cs)
  | '\\' :: c :: cs => pushEscape (plainEscape? c) (readBasic cs)
  | c :: cs => if isControl c then none else pushChar c (readBasic cs)
  | [] => none

def readLiteral : Reads (List Char)
  | '\'' :: cs => some ([], cs)
  | c :: cs => if isControl c then none else pushChar c (readLiteral cs)
  | [] => none

/-- Text of several lines up to three double quotes. `skipping` tells that blanks and line breaks do not
count until something else comes. -/
def readBasicLines (skipping : Bool) : Reads (List Char)
  | '"' :: '"' :: '"' :: '"' :: '"' :: cs => some (['"', '"'], cs)
  | '"' :: '"' :: '"' :: '"' :: cs => some (['"'], cs)
  | '"' :: '"' :: '"' :: cs => some ([], cs)
  | '\\' :: 'x' :: a :: b :: cs => pushEscape (charOfDigits? [a, b]) (readBasicLines false cs)
  | '\\' :: 'u' :: a :: b :: c :: d :: cs =>
    pushEscape (charOfDigits? [a, b, c, d]) (readBasicLines false cs)
  | '\\' :: 'U' :: a :: b :: c :: d :: e :: f :: g :: h :: cs =>
    pushEscape (charOfDigits? [a, b, c, d, e, f, g, h]) (readBasicLines false cs)
  | '\\' :: c :: cs =>
    if (afterBreak? (skipSpaces (c :: cs))).isSome then readBasicLines true cs
    else pushEscape (plainEscape? c) (readBasicLines false cs)
  | '\r' :: '\n' :: cs =>
    if skipping then readBasicLines true cs
    else pushChar '\r' (pushChar '\n' (readBasicLines false cs))
  | c :: cs =>
    if skipping && (isSpace c || c == '\n') then readBasicLines true cs
    else if isControl c && c != '\n' then none
    else pushChar c (readBasicLines false cs)
  | [] => none

def readLiteralLines : Reads (List Char)
  | '\'' :: '\'' :: '\'' :: '\'' :: '\'' :: cs => some (['\'', '\''], cs)
  | '\'' :: '\'' :: '\'' :: '\'' :: cs => some (['\''], cs)
  | '\'' :: '\'' :: '\'' :: cs => some ([], cs)
  | '\r' :: '\n' :: cs => pushChar '\r' (pushChar '\n' (readLiteralLines cs))
  | c :: cs => if isControl c && c != '\n' then none else pushChar c (readLiteralLines cs)
  | [] => none

def readQuotedLine : Reads (List Char)
  | '"' :: cs => readBasic cs
  | '\'' :: cs => readLiteral cs
  | _ => none

def readQuoted : Reads (List Char)
  | '"' :: '"' :: '"' :: cs => readBasicLines false ((afterBreak? cs).getD cs)
  | '\'' :: '\'' :: '\'' :: cs => readLiteralLines ((afterBreak? cs).getD cs)
  | cs => readQuotedLine cs

end TrafficPolicy.Toml
