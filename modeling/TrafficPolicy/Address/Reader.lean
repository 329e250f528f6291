import TrafficPolicy.Address.Basic
import TrafficPolicy.Number.Numeral
import TrafficPolicy.Text.Percent

/-!
# Reading addresses

An octet has at most three digits and no leading zero. A group has at most four hexadecimal digits;
`::` stands for at least one zero group, and the last two groups may be written as octets. An
endpoint is an address with a port; a group address stands in brackets there and may name a scope.
-/

namespace TrafficPolicy.Address

/-- What a reader takes from the front of a text, and the rest. -/
abbrev Reads (α : Type) := List Char → Option (α × List Char)

/-- The value of a digit in base 16, which is also its value in base 10 for a decimal digit. -/
def digitValue? (c : Char) : Option Nat :=
  if c.toNat < 128 then Text.hexValue? (UInt8.ofNat c.toNat) else none

def isDigitOf (base : Nat) (c : Char) : Bool :=
  match digitValue? c with
  | some n => n < base
  | none => false

/-- Takes all digits of `base` at the front of a text and gives their value. -/
def readDigits (base : Nat) (cs : List Char) : List Char × Nat × List Char :=
  let digits := cs.takeWhile (isDigitOf base)
  (digits, digits.foldl (fun n c => base * n + (digitValue? c).getD 0) 0,
    cs.dropWhile (isDigitOf base))

def readChar (c : Char) : Reads Unit
  | d :: cs => if c = d then some ((), cs) else none
  | [] => none

/-- A number up to 255 with at most three digits and no leading zero. -/
def readOctet : Reads UInt8 := fun cs =>
  let (digits, value, rest) := readDigits 10 cs
  if digits.isEmpty || 3 < digits.length || (digits.head? == some '0' && 1 < digits.length) ||
      255 < value then none
  else some (UInt8.ofNat value, rest)

def readGroup : Reads UInt16 := fun cs =>
  let (digits, value, rest) := readDigits 16 cs
  if digits.isEmpty || 4 < digits.length then none else some (UInt16.ofNat value, rest)

/-- A decimal number up to `bound`, leading zeros allowed. -/
def readBounded (bound : Nat) : Reads Nat := fun cs =>
  let (digits, value, rest) := readDigits 10 cs
  if digits.isEmpty || bound < value then none else some (value, rest)

def readOctets : Reads (Vector UInt8 4) := fun cs => do
  let (a, cs) ← readOctet cs
  let (_, cs) ← readChar '.' cs
  let (b, cs) ← readOctet cs
  let (_, cs) ← readChar '.' cs
  let (c, cs) ← readOctet cs
  let (_, cs) ← readChar '.' cs
  let (d, cs) ← readOctet cs
  return (#v[a, b, c, d], cs)

/-- A reader behind a colon, which is left out at the first place. -/
def afterColon {α : Type} (first : Bool) (reader : Reads α) : Reads α := fun cs =>
  if first then reader cs
  else do
    let (_, cs) ← readChar ':' cs
    reader cs

def groupsOfOctets (v : Vector UInt8 4) : List UInt16 :=
  [v[0].toUInt16 <<< 8 ||| v[1].toUInt16, v[2].toUInt16 <<< 8 ||| v[3].toUInt16]

/-- Takes at most `n` groups. The flag says that the last two were written as octets. -/
def readGroups : Bool → Nat → List Char → List UInt16 × Bool × List Char
  | _, 0, cs => ([], false, cs)
  | first, n + 1, cs =>
    match if 1 ≤ n then afterColon first readOctets cs else none with
    | some (v, rest) => (groupsOfOctets v, true, rest)
    | none =>
      match afterColon first readGroup cs with
      | none => ([], false, cs)
      | some (g, rest) =>
        let (gs, inOctets, rest) := readGroups false n rest
        (g :: gs, inOctets, rest)

def ofGroups? (words : List UInt16) : Option (Vector UInt16 8) :=
  if h : words.length = 8 then some ⟨words.toArray, by simpa using h⟩ else none

/-- Eight groups, some of which may be left out at `::`. -/
def readGroupAddress : Reads (Vector UInt16 8) := fun cs =>
  let (head, inOctets, rest) := readGroups true 8 cs
  if head.length = 8 then (ofGroups? head).map (·, rest)
  else if inOctets then none
  else do
    let (_, rest) ← readChar ':' rest
    let (_, rest) ← readChar ':' rest
    let (tail, _, rest) := readGroups true (7 - head.length) rest
    let zeros := List.replicate (8 - head.length - tail.length) 0
    (ofGroups? (head ++ zeros ++ tail)).map (·, rest)

def readAddress : Reads Address := fun cs =>
  match readOctets cs with
  | some (v, rest) => some (.octets v, rest)
  | none => (readGroupAddress cs).map fun (v, rest) => (.groups v, rest)

/-- The result of a reader that has to take the whole text. -/
def whole? {α : Type} (reader : Reads α) (cs : List Char) : Option α :=
  match reader cs with
  | some (value, []) => some value
  | _ => none

def read? (text : String) : Option Address :=
  whole? readAddress text.toList

def readPort : Reads Nat := fun cs => do
  let (_, cs) ← readChar ':' cs
  readBounded 65535 cs

/-- The number of a scope behind a percent sign, or nothing. -/
def skipScope (cs : List Char) : List Char :=
  match readChar '%' cs with
  | none => cs
  | some (_, rest) =>
    match readBounded 4294967295 rest with
    | some (_, rest) => rest
    | none => cs

def readEndpoint : Reads (Address × Nat) := fun cs =>
  let plain : Option ((Address × Nat) × List Char) := do
    let (v, rest) ← readOctets cs
    let (port, rest) ← readPort rest
    return ((.octets v, port), rest)
  match plain with
  | some result => some result
  | none => do
    let (_, rest) ← readChar '[' cs
    let (v, rest) ← readGroupAddress rest
    let (_, rest) ← readChar ']' (skipScope rest)
    let (port, rest) ← readPort rest
    return ((.groups v, port), rest)

def isEndpoint (text : String) : Bool :=
  (whole? readEndpoint text.toList).isSome

end TrafficPolicy.Address
