import TrafficPolicy.Toml.Scalar

/-!
# Reading a configuration

A document is a sequence of lines, each of which sets a key or opens a table. No key is set twice and no table
is opened twice; a table that has been written as a value, or built from dotted keys, cannot be opened.
-/

namespace TrafficPolicy.Toml

/-! ## Keys and values -/

def isBare (c : Char) : Bool :=
  c.isAlphanum || c == '_' || c == '-'

def readKeyPart : Reads String := fun cs =>
  match readQuotedLine cs with
  | some (text, rest) => some (String.ofList text, rest)
  | none =>
    let name := cs.takeWhile isBare
    if name.isEmpty then none else some (String.ofList name, cs.dropWhile isBare)

/-- A key, the parts of which are separated by points. -/
def readKey : Nat → Reads (List String)
  | 0, _ => none
  | fuel + 1, cs => do
    let (part, rest) ← readKeyPart (skipSpaces cs)
    match skipSpaces rest with
    | '.' :: rest =>
      let (parts, rest) ← readKey fuel rest
      return (part :: parts, rest)
    | rest => return ([part], rest)

/-- What follows a comment, or the same text if there is none. -/
def skipComment? : List Char → Option (List Char)
  | '#' :: cs =>
    let comment := cs.takeWhile (· != '\n')
    let rest := cs.dropWhile (· != '\n')
    let comment := if !rest.isEmpty && comment.getLast? == some '\r' then comment.dropLast else comment
    if comment.any isControl then none else some rest
  | cs => some cs

def skipGapFrom (inComment : Bool) : List Char → Option (List Char)
  | [] => some []
  | '\r' :: '\n' :: cs => skipGapFrom false cs
  | '\n' :: cs => skipGapFrom false cs
  | c :: cs =>
    if inComment then if isControl c then none else skipGapFrom true cs
    else if isSpace c then skipGapFrom false cs
    else if c = '#' then skipGapFrom true cs
    else some (c :: cs)

def skipGap (cs : List Char) : Option (List Char) :=
  skipGapFrom false cs

def endLine? (cs : List Char) : Option (List Char) := do
  let rest ← skipComment? (skipSpaces cs)
  if rest.isEmpty then some [] else afterBreak? rest

/-- A table in the making: what it was opened by, and its members. -/
inductive Opening where
  /-- It is only the way to another table. -/
  | path
  | header
  | dottedKey
deriving DecidableEq, Repr

inductive Node where
  | value (value : Value)
  | table (opening : Opening) (members : List (String × Node))
  /-- Tables that have been opened under one name, the latest first. -/
  | tables (items : List (List (String × Node)))
deriving Inhabited

abbrev Members := List (String × Node)

def Members.put (members : Members) (key : String) (node : Node) : Members :=
  if members.any fun member => member.1 == key then
    members.map fun member => if member.1 = key then (key, node) else member
  else members ++ [(key, node)]

/-- Follows a path of tables, which are made if they are not there, and changes the one it leads to. -/
def alter (dotted : Bool) (change : Opening → Members → Option Members) :
    List String → Opening → Members → Option Members
  | [], opening, members => change opening members
  | key :: path, _, members =>
    match List.lookup key members with
    | none => do
      let opening := if dotted then Opening.dottedKey else .path
      let inside ← alter dotted change path opening []
      return Members.put members key (.table opening inside)
    | some (.value _) => none
    | some (.tables []) => none
    | some (.tables (latest :: earlier)) => do
      let inside ← alter dotted change path .header latest
      return Members.put members key (.tables (inside :: earlier))
    | some (.table opening inside) => do
      if dotted ∧ opening = .header then none
      else
        let inside ← alter dotted change path opening inside
        return Members.put members key (.table opening inside)

/-- Sets a key of a table. A table that is not built from dotted keys is not added to by one. -/
def setKey (path : List String) (key : String) (value : Value) (members : Members) :
    Option Members :=
  alter true (fun opening inside =>
    if !path.isEmpty && opening != .dottedKey then none
    else if inside.any fun member => member.1 == key then none
    else some (Members.put inside key (.value value))) path .header members

def openTable (path : List String) (key : String) (members : Members) : Option Members :=
  alter false (fun _ inside =>
    match List.lookup key inside with
    | none => some (Members.put inside key (.table .header []))
    | some (.table .path within) => some (Members.put inside key (.table .header within))
    | _ => none) path .header members

def openItem (path : List String) (key : String) (members : Members) : Option Members :=
  alter false (fun _ inside =>
    match List.lookup key inside with
    | none => some (Members.put inside key (.tables [[]]))
    | some (.tables items) => some (Members.put inside key (.tables ([] :: items)))
    | _ => none) path .header members

mutual

def Node.toValue : Node → Value
  | .value value => value
  | .table _ members => .table (valuesOf members)
  | .tables items => .array (tablesOf items).reverse

def valuesOf : List (String × Node) → List (String × Value)
  | [] => []
  | (key, node) :: rest => (key, node.toValue) :: valuesOf rest

def tablesOf : List (List (String × Node)) → List Value
  | [] => []
  | members :: rest => .table (valuesOf members) :: tablesOf rest

end

/-- The greatest depth to which values are nested, and the greatest number of parts of a key. -/
def maxNesting : Nat := 80

def splitKey (parts : List String) : Option (List String × String) :=
  if maxNesting < parts.length then none else parts.getLast?.map (parts.dropLast, ·)

mutual

def readValue : (fuel depth : Nat) → Reads Value
  | fuel + 1, depth + 1, '[' :: cs => do
    let rest ← skipGap cs
    match rest with
    | ']' :: rest => return (.array [], rest)
    | rest =>
      let (items, rest) ← readItems fuel depth rest
      return (.array items, rest)
  | fuel + 1, depth + 1, '{' :: cs => do
    let rest ← skipGap cs
    match rest with
    | '}' :: rest => return (.table [], rest)
    | rest =>
      let (members, rest) ← readMembers fuel depth [] rest
      return (.table (valuesOf members), rest)
  | _, _, '"' :: cs => (readQuoted ('"' :: cs)).map fun (text, rest) => (.string (String.ofList text), rest)
  | _, _, '\'' :: cs =>
    (readQuoted ('\'' :: cs)).map fun (text, rest) => (.string (String.ofList text), rest)
  | _, _, cs => readPlain cs

def readItems : (fuel depth : Nat) → Reads (List Value)
  | 0, _, _ => none
  | fuel + 1, depth, cs => do
    let (item, rest) ← readValue fuel depth cs
    match ← skipGap rest with
    | ']' :: rest => return ([item], rest)
    | ',' :: rest =>
      match ← skipGap rest with
      | ']' :: rest => return ([item], rest)
      | rest =>
        let (items, rest) ← readItems fuel depth rest
        return (item :: items, rest)
    | _ => none

/-- Takes the members of a table that is written as a value. -/
def readMembers : (fuel depth : Nat) → Members → Reads Members
  | 0, _, _, _ => none
  | fuel + 1, depth, members, cs => do
    let (parts, rest) ← readKey fuel cs
    let (path, key) ← splitKey parts
    match ← skipGap rest with
    | '=' :: rest =>
      let (value, rest) ← readValue fuel depth (← skipGap rest)
      let members ← setKey path key value members
      match ← skipGap rest with
      | '}' :: rest => return (members, rest)
      | ',' :: rest =>
        match ← skipGap rest with
        | '}' :: rest => return (members, rest)
        | rest => readMembers fuel depth members rest
      | _ => none
    | _ => none

end

/-! ## Lines -/

def openAt (many : Bool) (header : List String) (members : Members) : Option Members := do
  let (path, key) ← splitKey header
  if many then openItem path key members else openTable path key members

def readHeader (fuel : Nat) (many : Bool) (members : Members) (cs : List Char) :
    Option (List String × Members × List Char) := do
  let (header, rest) ← readKey fuel cs
  let rest ← match many, rest with
    | false, ']' :: rest => some rest
    | true, ']' :: ']' :: rest => some rest
    | _, _ => none
  let members ← openAt many header members
  return (header, members, ← endLine? rest)

def readAssignment (fuel : Nat) (header : List String) (members : Members) (cs : List Char) :
    Option (Members × List Char) := do
  let (parts, rest) ← readKey fuel cs
  let (path, key) ← splitKey parts
  match skipSpaces rest with
  | '=' :: rest =>
    let (value, rest) ← readValue (2 * fuel + 2) maxNesting (skipSpaces rest)
    let members ← alter false (fun _ inside => setKey path key value inside) header .header members
    return (members, ← endLine? rest)
  | _ => none

/-- Reads lines up to the end. Every line takes characters, so the fuel stays greater than the number of
characters that are left. -/
def readLines : (fuel : Nat) → (header : List String) → Members → List Char → Option Members
  | 0, _, _, _ => none
  | fuel + 1, header, members, cs => do
    match ← skipGap cs with
    | [] => return members
    | '[' :: '[' :: rest =>
      let (header, members, rest) ← readHeader fuel true members rest
      readLines fuel header members rest
    | '[' :: rest =>
      let (header, members, rest) ← readHeader fuel false members rest
      readLines fuel header members rest
    | rest =>
      let (members, rest) ← readAssignment fuel header members rest
      readLines fuel header members rest

/-- A text without a byte order mark. -/
def withoutMark : List Char → List Char
  | '\uFEFF' :: cs => cs
  | cs => cs

def Value.read? (text : String) : Option Value := do
  let cs := withoutMark text.toList
  let members ← readLines (cs.length + 1) [] [] cs
  return .table (valuesOf members)

end TrafficPolicy.Toml
