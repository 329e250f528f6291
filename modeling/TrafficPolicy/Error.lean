/-!
# Why a command is refused

Causes are data; each type has one function that gives its wording. A value is refused for a
`Reason`, a target pattern for a `PatternFault`, and a command for a `CommandError`.
-/

namespace TrafficPolicy

inductive RegexFault where
  | malformed
  /-- An expression whose tables take more than `limit` bytes. -/
  | oversized (limit : Nat)
deriving DecidableEq, Repr

def RegexFault.message : RegexFault → String
  | .malformed => "regex parse error"
  | .oversized limit => s!"Compiled regex exceeds size limit of {limit} bytes."

/-- What is wrong with one value. -/
inductive Reason where
  | notNumber (literal : String)
  | notFinite (literal : String)
  | negative
  | emptyDuration
  | missingRate
  | rateNotPositive
  | emptySizes
  | notSize (item : String)
  | emptyValue
  | quotedValue
  | quotedUrl
  | notEndpoint
  | malformedEscape (byte : Nat)
  | notReplacement
  | badRegex (fault : RegexFault)
  | blocksNotInteger
  | statusNotInteger
  | countNotInteger
  | notAddress
  | notPlainDelay
  | blocksNotPositive
  | rateTooSlow
  | statusOutOfRange
  | countNegative
  | durationTooLong
deriving DecidableEq, Repr

def Reason.message : Reason → String
  | .notNumber literal => s!"'{literal}' is not a number"
  | .notFinite literal => s!"'{literal}' is not a finite number"
  | .negative => "negative values are not allowed"
  | .emptyDuration => "empty duration"
  | .missingRate => "missing numeric rate"
  | .rateNotPositive => "rate must be greater than zero"
  | .emptySizes => "empty chunk size list"
  | .notSize item => s!"'{item}' is not an integer chunk size"
  | .emptyValue => "value must not be empty"
  | .quotedValue => "value must not contain double quotes"
  | .quotedUrl => "url must not contain double quotes"
  | .notEndpoint => "expected ip:port"
  | .malformedEscape byte => s!"malformed percent escape at byte {byte}"
  | .notReplacement => "expected /<regex>/<replacement>/"
  | .badRegex fault => fault.message
  | .blocksNotInteger => "block count must be an integer"
  | .statusNotInteger => "status code must be an integer"
  | .countNotInteger => "count must be an integer"
  | .notAddress => "not an IP address"
  | .notPlainDelay => "only a plain delay applies to dns answers"
  | .blocksNotPositive => "block count must be positive"
  | .rateTooSlow => "rate must be at least 1B/s"
  | .statusOutOfRange => "status code must be within 100-999"
  | .countNegative => "count must not be negative"
  | .durationTooLong => "duration must be at most 366 days"

inductive PatternFault where
  | emptyDomain
  | emptyUrl
  /-- The expression for a pattern with stars is refused. -/
  | badRegex (fault : RegexFault)
deriving DecidableEq, Repr

def PatternFault.message : PatternFault → String
  | .emptyDomain => "empty domain"
  | .emptyUrl => "empty url pattern"
  | .badRegex fault => fault.message

/-- Two readers of nested commands, each of which takes only some policies. -/
inductive Reader where
  | urlSlots
  | domainOptions
deriving DecidableEq, Repr

def Reader.description : Reader → String
  | .urlSlots => "url slot classifier"
  | .domainOptions => "domain option parser"

/-- Why a command text does not give a policy, or gives one that cannot be used. -/
inductive CommandError where
  | emptyCommand
  | unknownKeyword (keyword : String)
  | missingArgument (keyword expected : String)
  | invalidValue (keyword value : String) (reason : Reason)
  | outOfRange (keyword value : String) (reason : Reason)
  | tooManyArguments (keyword extra : String)
  | conflict (slot first second : String)
  | invalidPattern (pattern : String) (fault : PatternFault)
  | notApplicable (command : String)
  /-- A policy that its reader has no use for. -/
  | misplaced (command : String) (reader : Reader)
deriving DecidableEq, Repr

def CommandError.message : CommandError → String
  | .emptyCommand => "empty command"
  | .unknownKeyword keyword => s!"unknown keyword '{keyword}'"
  | .missingArgument keyword expected => s!"{keyword}: missing argument, expected {expected}"
  | .invalidValue keyword value reason =>
    s!"{keyword}: invalid value '{value}': {reason.message}"
  | .outOfRange keyword value reason =>
    s!"{keyword}: value '{value}' out of range: {reason.message}"
  | .tooManyArguments keyword extra => s!"{keyword}: too many arguments starting at '{extra}'"
  | .conflict slot first second =>
    s!"conflicting {slot} policies '{first}' and '{second}' in one command"
  | .invalidPattern pattern fault => s!"invalid pattern '{pattern}': {fault.message}"
  | .notApplicable command => s!"'{command}' cannot be applied to a profile on its own"
  | .misplaced command reader => s!"internal error: '{command}' reached the {reader.description}"

end TrafficPolicy
