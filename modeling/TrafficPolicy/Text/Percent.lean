import TrafficPolicy.Text.Blank

/-!
# Percent escapes

An escape is a percent sign and two hexadecimal digits, which stand for one byte. Reading works on
the bytes of the text. A percent sign without two digits after it stands for itself; `malformedAt?`
finds the first such sign.
-/

namespace TrafficPolicy.Text

def utf8 (cs : List Char) : List UInt8 :=
  cs.flatMap String.utf8EncodeChar

def ofUtf8? (bytes : List UInt8) : Option (List Char) :=
  (String.fromUTF8? bytes.toByteArray).map String.toList

def hexValue? (b : UInt8) : Option Nat :=
  let n := b.toNat
  if 0x30 ≤ n ∧ n ≤ 0x39 then some (n - 0x30)
  else if 0x41 ≤ n ∧ n ≤ 0x46 then some (n - 0x41 + 10)
  else if 0x61 ≤ n ∧ n ≤ 0x66 then some (n - 0x61 + 10)
  else none

namespace Percent

/-- The byte of the percent sign. -/
def sign : UInt8 := 0x25

def escaped? (high low : UInt8) : Option UInt8 := do
  let h ← hexValue? high
  let l ← hexValue? low
  return UInt8.ofNat (16 * h + l)

def decode : List UInt8 → List UInt8
  | b :: high :: low :: rest =>
    match if b = sign then escaped? high low else none with
    | some byte => byte :: decode rest
    | none => b :: decode (high :: low :: rest)
  | bytes => bytes

/-- The index of the first percent sign that begins no escape, for bytes that start at `index`. -/
def malformedFrom? (index : Nat) : List UInt8 → Option Nat
  | b :: high :: low :: rest =>
    if b = sign then
      match escaped? high low with
      | some _ => malformedFrom? (index + 3) rest
      | none => some index
    else malformedFrom? (index + 1) (high :: low :: rest)
  | [b, c] => if b = sign then some index else if c = sign then some (index + 1) else none
  | [b] => if b = sign then some index else none
  | [] => none

def malformedAt? (bytes : List UInt8) : Option Nat :=
  malformedFrom? 0 bytes

/-- A part of a query: a plus is a space, and escapes are replaced unless the bytes they give
encode no text. -/
def decodeComponent (cs : List Char) : List Char :=
  let spaced := cs.map fun c => if c = '+' then ' ' else c
  (ofUtf8? (decode (utf8 spaced))).getD spaced

end Percent

end TrafficPolicy.Text
