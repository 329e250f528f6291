import TrafficPolicy.Address.Reader
import TrafficPolicy.Policy.Delay
import TrafficPolicy.Policy.Marker
import TrafficPolicy.Target.DomainPattern
import TrafficPolicy.Text.Words

/-!
# Domain rules

A domain rule is what one `domain` command says about the questions for some domains: the action, a
delay, and the addresses to hand out with the manner of doing so.
-/

namespace TrafficPolicy

inductive DomainAction where
  /-- With the addresses of the rule, or by asking if it has none. -/
  | resolve
  | block
  /-- With the addresses of the proxy. -/
  | proxy
  /-- With no address. -/
  | null
deriving DecidableEq, Repr

namespace DomainAction

def ofMarker? : Marker → Option DomainAction
  | .default => some .resolve
  | .block => some .block
  | .proxy => some .proxy
  | .null => some .null
  | _ => none

/-- The marker that an action is written as; resolving is not written. -/
def marker? : DomainAction → Option Marker
  | .resolve => none
  | .block => some .block
  | .proxy => some .proxy
  | .null => some .null

def comment? : DomainAction → Option String
  | .resolve => none
  | .block => some "block"
  | .proxy => some "resolve to the proxy"
  | .null => some Marker.null.comment

theorem ofMarker?_marker? (a : DomainAction) : (a.marker?.bind ofMarker?).getD .resolve = a := by
  cases a <;> rfl

end DomainAction

inductive DomainTarget where
  | all
  | pattern (pattern : DomainPattern)
deriving DecidableEq

namespace DomainTarget

def read (text : String) : Except CommandError DomainTarget :=
  if text = "all" then .ok .all else (DomainPattern.read text).map .pattern

def text : DomainTarget → String
  | .all => "all"
  | .pattern p => p.text

def covers (target : DomainTarget) (domain : String) : Bool :=
  match target with
  | .all => true
  | .pattern p => p.covers domain

end DomainTarget

structure DomainRule where
  action : DomainAction := .resolve
  delay : Option DelayPolicy := none
  shuffle : Bool := false
  circular : Bool := false
  limit : Option Nat := none
  target : DomainTarget
  addresses : List Address := []
deriving DecidableEq

namespace DomainRule

/-- The words of a domain command that stand in front of its target. -/
def keywords : List String :=
  ["default", "block", "proxy", "null", "delay", "shuffle", "circular", "n"]

def readAddress (item : List Char) : Except CommandError Address :=
  match Address.read? (String.ofList (Text.trim item)) with
  | some address => .ok address
  | none => .error (.invalidValue "domain" (String.ofList item) .notAddress)

def readAddresses (list : String) : Except CommandError (List Address) :=
  (Text.splitOn ',' list.toList).mapM readAddress

def limitCommand (limit : Nat) : String := s!"n {limit}"

def limitComment (limit : Nat) : String := s!"answer at most {limit} addresses"

def words (rule : DomainRule) : List String :=
  (rule.action.marker?.map Marker.keyword).toList ++
    (rule.delay.map DelayPolicy.command).toList ++
    (if rule.shuffle then [Marker.shuffle.keyword] else []) ++
    (rule.limit.map limitCommand).toList ++
    (if rule.circular then [Marker.circular.keyword] else []) ++
    [Text.quote rule.target.text] ++
    (if rule.addresses.isEmpty then [] else [Address.listText rule.addresses])

def command (rule : DomainRule) : String :=
  Text.joinWith " " ("domain" :: rule.words)

def addressesComment (rule : DomainRule) : String :=
  "answer " ++ Address.listText rule.addresses ++
    ((rule.limit.map fun limit => s!" ({limit} at a time)").getD "") ++
    (if rule.shuffle then ", shuffled" else "") ++
    (if rule.circular then ", rotating" else "")

def comment (rule : DomainRule) : String :=
  let parts := rule.action.comment?.toList ++ (rule.delay.map DelayPolicy.comment).toList ++
    (if rule.addresses.isEmpty then [] else [rule.addressesComment])
  rule.target.text ++ ": " ++
    if parts.isEmpty then "resolve upstream" else Text.joinWith "; " parts

end DomainRule

end TrafficPolicy
