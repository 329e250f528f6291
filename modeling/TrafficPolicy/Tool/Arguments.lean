import TrafficPolicy.Address.Reader

/-!
# The command line

The program has four requests. The path of a configuration may be given before the name of a request or
after it, where the later one counts; but none may be given twice at the same place. After two hyphens
every argument stands for itself.
-/

namespace TrafficPolicy

inductive UsageError where
  | helpWanted
  | versionWanted
  | noArguments
  | missingRequest
  | unknownRequest
  | missingOperand
  | unknownArgument
  /-- An option without a value, or an empty path. -/
  | missingValue
  | invalidAddress
  | optionTwice
  | unwantedValue
deriving DecidableEq, Repr

def UsageError.message : UsageError → String
  | .helpWanted => "help is wanted"
  | .versionWanted => "the version is wanted"
  | .noArguments => "there are no arguments"
  | .missingRequest => "a command is missing"
  | .unknownRequest => "the command is not known"
  | .missingOperand => "an argument is missing"
  | .unknownArgument => "an argument is not known"
  | .missingValue => "a value is missing"
  | .invalidAddress => "a client is not an IP address"
  | .optionTwice => "an option is given twice"
  | .unwantedValue => "a flag has a value"

inductive Request where
  | check (paths : List String)
  | explain (client : Option Address) (url : String)
  | dns (client : Option Address) (domain : String)
  | dump (client : Option Address)
deriving DecidableEq

structure Arguments where
  config : Option String
  request : Request
deriving DecidableEq

namespace Arguments

inductive RequestName where
  | check
  | explain
  | dns
  | dump
deriving DecidableEq, Repr

def RequestName.ofText? : String → Option RequestName
  | "check" => some .check
  | "explain" => some .explain
  | "dns" => some .dns
  | "dump" => some .dump
  | _ => none

inductive Operands where
  | none
  | one
  /-- One or more paths. -/
  | paths
deriving DecidableEq, Repr

/-- What may stand at one place of the command line: before the name of a request, or after it. -/
structure Form where
  hasRequests : Bool
  hasClient : Bool
  operands : Operands
deriving DecidableEq, Repr

def Form.top : Form := ⟨true, false, .none⟩

def RequestName.form : RequestName → Form
  | .check => ⟨false, false, .paths⟩
  | .explain => ⟨false, true, .one⟩
  | .dns => ⟨false, true, .one⟩
  | .dump => ⟨false, true, .none⟩

inductive Setting where
  | config
  | client
deriving DecidableEq, Repr

structure Progress where
  config : Option String := none
  client : Option Address := none
  operands : List String := []
  /-- The option that has been read last, with its value if that has been read too. -/
  pending : Option (Setting × Option String) := none

def Progress.set (p : Progress) (value : String) : Setting → Except UsageError Progress
  | .config =>
    if p.config.isSome then .error .optionTwice
    else if value.isEmpty then .error .missingValue
    else .ok { p with config := some value, pending := none }
  | .client =>
    if p.client.isSome then .error .optionTwice
    else
      match Address.read? value with
      | some address => .ok { p with client := some address, pending := none }
      | none => .error .invalidAddress

/-- Looks at what has been read since the last option. -/
def Progress.settle (p : Progress) (form : Form) : Except UsageError Progress :=
  match p.pending with
  | some (setting, some value) => p.set value setting
  | some (_, none) => .error .missingValue
  | none =>
    if form.operands = .paths ∧ p.operands.any String.isEmpty then .error .missingValue else .ok p

inductive Token where
  | escape
  | long (name : List Char) (value : Option (List Char))
  | short (name : Char)
  | plain
deriving DecidableEq, Repr

def Token.ofText (text : String) : Token :=
  match text.toList with
  | ['-', '-'] => .escape
  | '-' :: '-' :: cs =>
    match Text.splitOnce '=' cs with
    | some (name, value) => .long name (some value)
    | none => .long cs none
  | '-' :: c :: _ => .short c
  | _ => .plain

/-- The option of a name, if it may stand here. -/
def Form.setting? (form : Form) (name : List Char) : Option Setting :=
  if name = "config".toList then some .config
  else if name = "client".toList && form.hasClient then some .client
  else none

/-- The flag that only asks for something to be shown, if the name is that of one. -/
def Form.shown? (form : Form) (name : List Char) : Option UsageError :=
  if name = "help".toList then some .helpWanted
  else if name = "version".toList && form.hasRequests then some .versionWanted
  else none

def Form.shownShort? (form : Form) : Char → Option UsageError
  | 'h' => some .helpWanted
  | 'V' => if form.hasRequests then some .versionWanted else none
  | _ => none

def Form.refuse (form : Form) (escaped : Bool) (text : String) : UsageError :=
  if form.hasRequests then
    if escaped ∧ ((RequestName.ofText? text).isSome ∨ text = "help") then .unknownArgument
    else .unknownRequest
  else .unknownArgument

def Progress.addOperand (p : Progress) (form : Form) (escaped : Bool) (text : String) :
    Except UsageError Progress :=
  match form.operands with
  | .none => .error (form.refuse escaped text)
  | .one =>
    if p.operands.isEmpty then do
      let p ← p.settle form
      return { p with operands := [text] }
    else .error (form.refuse escaped text)
  | .paths => do
    let p ← if p.pending.isSome then p.settle form else .ok p
    return { p with operands := p.operands ++ [text] }

def Progress.readLong (p : Progress) (form : Form) (name : List Char) (value : Option (List Char)) :
    Except UsageError Progress :=
  match form.setting? name, form.shown? name, value with
  | some setting, _, none => do
    let p ← p.settle form
    return { p with pending := some (setting, none) }
  | some setting, _, some value => do
    let p ← p.settle form
    p.set (String.ofList value) setting
  | none, some _, some _ => .error .unwantedValue
  | none, some shown, none => do
    let _ ← p.settle form
    .error shown
  | none, none, _ => .error .unknownArgument

/-- What has been read up to the name of a request, with the request and what follows it. -/
abbrev UpToRequest := Progress × Option (RequestName × List String)

def helpOn : List String → UsageError
  | [] => .helpWanted
  | ["help"] => .helpWanted
  | [name] => if (RequestName.ofText? name).isSome then .helpWanted else .unknownRequest
  | _ => .unknownRequest

/-- Reads arguments at one place. `escaped` tells whether two hyphens have been read. -/
def readPlace (form : Form) : (escaped : Bool) → Progress → List String →
    Except UsageError UpToRequest
  | _, p, [] => .ok (p, none)
  | true, p, text :: rest => do
    let p ← p.addOperand form true text
    readPlace form true p rest
  | false, p, text :: rest =>
    let awaits := p.pending.any fun pending => pending.2.isNone
    match if awaits || !form.hasRequests then none else RequestName.ofText? text with
    | some name => .ok (p, some (name, rest))
    | none =>
      if text = "help" ∧ form.hasRequests ∧ !awaits then .error (helpOn rest)
      else
        match Token.ofText text with
        | .escape => readPlace form true p rest
        | .long name value => do
          let p ← p.readLong form name value
          readPlace form false p rest
        | .short name =>
          match form.shownShort? name with
          | none => .error .unknownArgument
          | some shown => do
            let _ ← p.settle form
            .error shown
        | .plain => do
          let p ← match p.pending with
            | some (setting, none) => .ok { p with pending := some (setting, some text) }
            | _ => p.addOperand form false text
          readPlace form false p rest

def requestOf (p : Progress) : RequestName → Except UsageError Request
  | .check => if p.operands.isEmpty then .error .missingOperand else .ok (.check p.operands)
  | .explain =>
    match p.operands with
    | [] => .error .missingOperand
    | url :: _ => .ok (.explain p.client url)
  | .dns =>
    match p.operands with
    | [] => .error .missingOperand
    | domain :: _ => .ok (.dns p.client domain)
  | .dump => .ok (.dump p.client)

def readRequest (name : RequestName) (texts : List String) :
    Except UsageError (Option String × Request) := do
  let (p, _) ← readPlace name.form false {} texts
  let p ← p.settle name.form
  let request ← requestOf p name
  return (p.config, request)

def read (texts : List String) : Except UsageError Arguments := do
  let (p, found) ← readPlace Form.top false {} texts
  match found with
  | none =>
    let p ← p.settle Form.top
    .error (if p.config.isSome then .missingRequest else .noArguments)
  | some (name, rest) =>
    let (config, request) ← readRequest name rest
    let p ← p.settle Form.top
    return { config := config <|> p.config, request }

end Arguments

end TrafficPolicy
