import TrafficPolicy.Regex.Syntax

/-!
# Programs for searching

An expression is laid out as an array of instructions. Execution goes from one instruction to the next
unless an instruction says otherwise, and at a fork it prefers the first way. A repetition of an
expression that matches the empty text is laid out as an optional repetition of at least once, which
keeps the order of preference.
-/

namespace TrafficPolicy.Regex

open Unicode (CharSet)

inductive Instruction where
  /-- Takes a character. -/
  | char (c : Char)
  /-- Takes a character of the set. -/
  | take (set : CharSet)
  | require (condition : Look)
  /-- Records the place. -/
  | record (slot : Nat)
  | fork (preferred other : Nat)
  | jump (target : Nat)
  | accept
deriving Repr

abbrev Program := Array Instruction

/-- A fork that goes into a repetition or past it. -/
def forkInto (greedy : Bool) (inside past : Nat) : Instruction :=
  if greedy then .fork inside past else .fork past inside

def copies (lay : Program → Program) : Nat → Program → Program
  | 0, program => program
  | count + 1, program => copies lay count (lay program)

namespace Node

def size : Node → Nat
  | .empty => 0
  | .text word => word.length
  | .chars _ => 1
  | .look _ => 1
  | .capture _ body => body.size + 2
  | .cat first rest => first.size + rest.size
  | .alt first rest => first.size + rest.size + 2
  | .rep body 0 none _ => body.size + 2
  | .rep body (least + 1) none _ => (least + 1) * body.size + 1
  | .rep body least (some most) _ => least * body.size + (most - least) * (body.size + 1)

/-- Lays an expression out after the instructions that are there. If the expression is what remains of a
choice, `finish?` is the place after the choice. -/
def lay : Node → (finish? : Option Nat) → Program → Program
  | .empty, _, program => program
  | .text word, _, program => word.foldl (fun program c => program.push (.char c)) program
  | .chars set, _, program => program.push (.take set)
  | .look condition, _, program => program.push (.require condition)
  | .capture index body, _, program =>
    (body.lay none (program.push (.record (2 * index)))).push (.record (2 * index + 1))
  | .cat first rest, _, program => rest.lay none (first.lay none program)
  | .alt first rest, finish?, program =>
    let finish := match finish? with
      | some finish => finish
      | none => program.size + (first.size + rest.size + 2)
    let second := program.size + first.size + 2
    let program := first.lay none (program.push (.fork (program.size + 1) second))
    rest.lay (some finish) (program.push (.jump finish))
  | .rep body 0 none greedy, _, program =>
    let start := program.size
    let finish := start + body.size + 2
    let program := body.lay none (program.push (forkInto greedy (start + 1) finish))
    program.push (if body.mustAdvance then .jump start else forkInto greedy (start + 1) finish)
  | .rep body (least + 1) none greedy, _, program =>
    let program := copies (body.lay none) (least + 1) program
    program.push (forkInto greedy (program.size - body.size) (program.size + 1))
  | .rep body least (some most) greedy, _, program =>
    let program := copies (body.lay none) least program
    let finish := program.size + (most - least) * (body.size + 1)
    copies (fun program => body.lay none (program.push (forkInto greedy (program.size + 1) finish)))
      (most - least) program

end Node

/-- The program that searches for an expression; slots 0 and 1 hold the ends of the match. -/
def Expression.program (e : Expression) : Program :=
  ((e.body.lay none #[.record 0]).push (.record 1)).push .accept

end TrafficPolicy.Regex
