/-!
# Blank characters, trimming and cutting

Text is handled as a list of characters. Blank means the Unicode property `White_Space`, which has
members outside ASCII. Cutting at a separator keeps empty pieces, so that joining the pieces with
the separator gives the text back.
-/

namespace TrafficPolicy.Text

/-- The characters with the Unicode property `White_Space`. -/
def isBlank (c : Char) : Bool :=
  let n := c.toNat
  (9 ≤ n && n ≤ 13) || n == 0x20 || n == 0x85 || n == 0xA0 || n == 0x1680 ||
    (0x2000 ≤ n && n ≤ 0x200A) || n == 0x2028 || n == 0x2029 || n == 0x202F || n == 0x205F ||
    n == 0x3000

/-- Drops the longest tail whose members all satisfy `p`. -/
def dropTailWhile (p : Char → Bool) (cs : List Char) : List Char :=
  (cs.reverse.dropWhile p).reverse

def trim (cs : List Char) : List Char :=
  dropTailWhile isBlank (cs.dropWhile isBlank)

/-- Lower case of the ASCII letters; every other character is kept. -/
def lower (cs : List Char) : List Char :=
  cs.map Char.toLower

/-- The pieces between the occurrences of `sep`; there is one more piece than there are separators. -/
def splitOn (sep : Char) : List Char → List (List Char)
  | [] => [[]]
  | c :: cs =>
    if c = sep then [] :: splitOn sep cs
    else
      match splitOn sep cs with
      | [] => [[c]]
      | piece :: pieces => (c :: piece) :: pieces

theorem splitOn_ne_nil (sep : Char) (cs : List Char) : splitOn sep cs ≠ [] := by
  induction cs with
  | nil => simp [splitOn]
  | cons c cs ih =>
    by_cases h : c = sep
    · simp [splitOn, h]
    · cases hs : splitOn sep cs <;> simp [splitOn, h, hs]

def splitOnce (sep : Char) (cs : List Char) : Option (List Char × List Char) :=
  match cs.dropWhile (· != sep) with
  | [] => none
  | _ :: after => some (cs.takeWhile (· != sep), after)

/-- What stands before and after the first place where `word` stands, if there is one. -/
def cutAt? (word : List Char) : List Char → Option (List Char × List Char)
  | [] => none
  | c :: cs =>
    if word.isPrefixOf (c :: cs) then some ([], (c :: cs).drop word.length)
    else (cutAt? word cs).map fun (before, after) => (c :: before, after)

def stripStart? (start cs : List Char) : Option (List Char) :=
  if start.isPrefixOf cs then some (cs.drop start.length) else none

def stripEnd? (tail cs : List Char) : Option (List Char) :=
  if tail.isSuffixOf cs then some (cs.take (cs.length - tail.length)) else none

def joinWith (sep : String) (items : List String) : String :=
  sep.intercalate items

end TrafficPolicy.Text
