import TrafficPolicy.Unicode.CharSet

/-!
# Regular expressions

The tree of an expression. A repetition prefers more copies if it is greedy and fewer otherwise, and
an alternative prefers its first part; groups with an index record what they match.

Expressions are kept in a normal form: one after the other they stand as a chain of parts of which none
is empty, a chain itself or a text beside a text, and a choice is a chain of ways of which none is a
choice itself.
-/

namespace TrafficPolicy.Regex

open Unicode (CharSet)

inductive Look where
  | textStart
  | textEnd
  | lineStart
  | lineEnd
  /-- Line ends are a carriage return, a line feed, or both in this order. -/
  | lineStartReturn
  | lineEndReturn
  | wordBoundary (ascii : Bool)
  | notWordBoundary (ascii : Bool)
  | wordStart (ascii : Bool)
  | wordEnd (ascii : Bool)
  | wordStartHalf (ascii : Bool)
  | wordEndHalf (ascii : Bool)
deriving DecidableEq, Repr

inductive Node where
  | empty
  /-- Some characters one after the other. -/
  | text (chars : List Char)
  /-- One character of a set. -/
  | chars (set : CharSet)
  | look (condition : Look)
  | capture (index : Nat) (body : Node)
  | cat (first rest : Node)
  | alt (first rest : Node)
  | rep (body : Node) (least : Nat) (most : Option Nat) (greedy : Bool)
deriving DecidableEq, Repr

/-- An expression with the names of its groups. The first group has index one. -/
structure Expression where
  source : String
  body : Node
  groups : Nat
  names : List (String × Nat)
deriving DecidableEq, Repr

/-- How many bytes the character with a code point is encoded in. -/
def codeLength (code : Nat) : Nat :=
  if code < 0x80 then 1 else if code < 0x800 then 2 else if code < 0x10000 then 3 else 4

def textLength (chars : List Char) : Nat :=
  chars.foldl (fun n c => n + codeLength c.toNat) 0

namespace Node

/-- The fewest bytes that the expression matches. `none` says that it matches nothing at all. -/
def minLength : Node → Option Nat
  | .empty => some 0
  | .text word => some (textLength word)
  | .chars set => set.ranges.head?.map fun r => codeLength r.1
  | .look _ => some 0
  | .capture _ body => body.minLength
  | .cat first rest =>
    match first.minLength, rest.minLength with
    | some m, some n => some (m + n)
    | _, _ => none
  | .alt first rest =>
    match first.minLength, rest.minLength with
    | some m, some n => some (min m n)
    | _, _ => none
  | .rep body least _ _ => body.minLength.map (least * ·)

/-- The most bytes that the expression matches. `none` says that there is no bound. -/
def maxLength : Node → Option Nat
  | .empty => some 0
  | .text word => some (textLength word)
  | .chars set => set.ranges.getLast?.map fun r => codeLength r.2
  | .look _ => some 0
  | .capture _ body => body.maxLength
  | .cat first rest =>
    match first.maxLength, rest.maxLength with
    | some m, some n => some (m + n)
    | _, _ => none
  | .alt first rest =>
    match first.maxLength, rest.maxLength with
    | some m, some n => some (max m n)
    | _, _ => none
  | .rep body _ most _ =>
    match body.maxLength, most with
    | some m, some n => some (m * n)
    | _, _ => none

/-- Whether the expression can match more than the empty text. -/
def canAdvance (node : Node) : Bool :=
  node.maxLength != some 0

/-- Whether the expression certainly matches some text that is not empty, if it matches. -/
def mustAdvance (node : Node) : Bool :=
  match node.minLength with
  | some n => 0 < n
  | none => false

def beginsWith (condition : Look) : Node → Bool
  | .look c => c = condition
  | .capture _ body => body.beginsWith condition
  | .cat first rest =>
    first.beginsWith condition || (!first.canAdvance && rest.beginsWith condition)
  | .alt first rest => first.beginsWith condition && rest.beginsWith condition
  | .rep body least _ _ => 0 < least && body.beginsWith condition
  | _ => false

def endsWith (condition : Look) : Node → Bool
  | .look c => c = condition
  | .capture _ body => body.endsWith condition
  | .cat first rest =>
    rest.endsWith condition || (!rest.canAdvance && first.endsWith condition)
  | .alt first rest => first.endsWith condition && rest.endsWith condition
  | .rep body least _ _ => 0 < least && body.endsWith condition
  | _ => false

/-- The parts that stand one after the other. -/
def parts : Node → List Node
  | .empty => []
  | .cat first rest => first :: rest.parts
  | node => [node]

def ways : Node → List Node
  | .alt first rest => first :: rest.ways
  | node => [node]

def text? : Node → Option (List Char)
  | .text word => some word
  | _ => none

/-- A set of characters, or the text of its only one. -/
def ofSet (set : CharSet) : Node :=
  match set.single? with
  | some c => .text [c]
  | none => .chars set

def ofParts : List Node → Node
  | [] => .empty
  | [node] => node
  | node :: rest => .cat node (ofParts rest)

def ofWays : List Node → Node
  | [] => .chars .empty
  | [node] => node
  | node :: rest => .alt node (ofWays rest)

/-- Puts a part in front of others, of which a text joins a text. -/
def joinText (node : Node) (rest : List Node) : List Node :=
  match node, rest with
  | .text a, .text b :: rest => .text (a ++ b) :: rest
  | _, _ => node :: rest

def concat (nodes : List Node) : Node :=
  ofParts ((nodes.flatMap parts).foldr joinText [])

/-- The set of some ways that are one character each. -/
def singleChars? (ways : List Node) : Option CharSet :=
  (ways.mapM fun (way : Node) => match way with
    | .text [c] => some c
    | _ => none).map CharSet.ofList

def setOfSets? (ways : List Node) : Option CharSet :=
  (ways.mapM fun (way : Node) => match way with
    | .chars set => some set
    | _ => none).map CharSet.unionAll

/-- How many parts two chains have in common at their start. -/
def commonStart : List Node → List Node → Nat
  | a :: as, b :: bs => if a = b then commonStart as bs + 1 else 0
  | _, _ => 0

/-- How many parts all ways have in common at their start; none, if some way is not a chain. -/
def commonParts (ways : List Node) : Nat :=
  match ways with
  | .cat a as :: rest =>
    rest.foldl (fun n (way : Node) => match way with
      | .cat b bs => min n (commonStart (a :: as.parts) (b :: bs.parts))
      | _ => 0) (as.parts.length + 1)
  | _ => 0

def count : Node → Nat
  | .capture _ body => body.count + 1
  | .cat first rest => first.count + rest.count + 1
  | .alt first rest => first.count + rest.count + 1
  | .rep body _ _ _ => body.count + 1
  | _ => 1

/-- A choice of ways. Ways of one character each make a set, and parts that all ways begin with are
taken in front of the choice. Each time this is done the ways lose nodes, so the number of nodes bounds
how often. -/
def choose : Nat → List Node → Node
  | 0, nodes => ofWays (nodes.flatMap ways)
  | steps + 1, nodes =>
    match nodes.flatMap ways with
    | [node] => node
    | all =>
      match singleChars? all <|> setOfSets? all with
      | some set => ofSet set
      | none =>
        match commonParts all with
        | 0 => ofWays all
        | n + 1 =>
          let start := (all.head?.map fun way => way.parts.take (n + 1)).getD []
          concat (start ++ [choose steps (all.map fun way => concat (way.parts.drop (n + 1)))])

def alternate (nodes : List Node) : Node :=
  choose ((nodes.map count).foldl (· + ·) 0 + 1) nodes

/-- Copies of an expression. Where it matches the empty text only one copy is as good as many. -/
def repeated (body : Node) (least : Nat) (most : Option Nat) (greedy : Bool) : Node :=
  let (least, most) :=
    if body.canAdvance then (least, most) else (min least 1, some ((most.map (min · 1)).getD 1))
  if most = some 0 then .empty
  else if least = 1 ∧ most = some 1 then body
  else .rep body least most greedy

end Node

end TrafficPolicy.Regex
