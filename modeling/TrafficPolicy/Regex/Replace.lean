import TrafficPolicy.Regex.Reader
import TrafficPolicy.Regex.Search

/-!
# Replacing matches

A replacement text may refer to what the groups of a match hold: `$1` and `$name` take as many letters,
digits and underscores as there are, and braces end a name early. Two dollar signs stand for one, and a
dollar sign before anything else for itself. A reference to a group that is not there is empty.
-/

namespace TrafficPolicy.Regex

inductive Piece where
  | literal (c : Char)
  | group (index : Nat)
  | named (name : String)
deriving DecidableEq, Repr

def isReferenceChar (c : Char) : Bool :=
  c.isAlphanum || c == '_'

def pieceOf (name : List Char) : Piece :=
  let digits := match name with
    | '+' :: rest => rest
    | _ => name
  if !digits.isEmpty && digits.all Char.isDigit && Number.digitsValue 0 digits < 0x10000000000000000 then
    .group (Number.digitsValue 0 digits)
  else .named (String.ofList name)

/-- The parts of a replacement text. Every step takes a character, so the length of the text bounds
their number. -/
def piecesFrom : Nat → List Char → List Piece
  | 0, _ => []
  | _, [] => []
  | steps + 1, '$' :: rest =>
    match rest with
    | '$' :: rest => .literal '$' :: piecesFrom steps rest
    | '\x7b' :: inside =>
      match inside.dropWhile (· != '\x7d') with
      | [] => .literal '$' :: piecesFrom steps rest
      | _ :: after => pieceOf (inside.takeWhile (· != '\x7d')) :: piecesFrom steps after
    | _ =>
      let name := rest.takeWhile isReferenceChar
      if name.isEmpty then .literal '$' :: piecesFrom steps rest
      else pieceOf name :: piecesFrom steps (rest.dropWhile isReferenceChar)
  | steps + 1, c :: rest => .literal c :: piecesFrom steps rest

def pieces (replacement : String) : List Piece :=
  let cs := replacement.toList
  piecesFrom cs.length cs

/-- What is left of a text from a place on. -/
structure Remainder where
  place : Nat
  text : List Char

/-- The text between two places, neither of which is before the remainder. -/
def Remainder.slice (r : Remainder) (first last : Nat) : List Char :=
  (r.text.drop (first - r.place)).take (last - first)

def Remainder.goTo (r : Remainder) (place : Nat) : Remainder :=
  ⟨place, r.text.drop (place - r.place)⟩

def groupText (r : Remainder) (slots : Slots) (index : Nat) : List Char :=
  match span? slots index with
  | none => []
  | some (first, last) => r.slice first last

/-- What a part of a replacement text stands for in a match, which lies in the remainder. -/
def Piece.expand (e : Expression) (r : Remainder) (slots : Slots) : Piece → List Char
  | .literal c => [c]
  | .group index => groupText r slots index
  | .named name =>
    match e.names.lookup name with
    | none => []
    | some index => groupText r slots index

/-- The remainder with each match in it replaced. -/
def replaceFrom (e : Expression) (parts : List Piece) (r : Remainder) : List Slots → List Char
  | [] => r.text
  | slots :: rest =>
    match span? slots 0 with
    | none => replaceFrom e parts r rest
    | some (first, last) =>
      r.slice r.place first ++ parts.flatMap (Piece.expand e r slots) ++
        replaceFrom e parts (r.goTo last) rest

def Expression.replaceAll (e : Expression) (replacement text : String) : String :=
  let cs := text.toList
  String.ofList (replaceFrom e (pieces replacement) ⟨0, cs⟩ (e.matches cs))

end TrafficPolicy.Regex
