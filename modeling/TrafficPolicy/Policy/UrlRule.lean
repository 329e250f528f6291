import TrafficPolicy.Policy.Slots
import TrafficPolicy.Target.UrlPattern

/-!
# Url rules

A url rule is what one `url` command says: how it merges with an earlier rule for the same target, the
occupants of the slots, and the target. Three slots are exclusive, so that a command may fill them only
once; a setting may be written again, and the last one counts.
-/

namespace TrafficPolicy

/-- How a rule merges with an earlier one for the same target. -/
inductive UrlMode where
  /-- Every slot is taken from the new rule. -/
  | set
  /-- Only the slots that the new rule fills are taken from it. -/
  | update
deriving DecidableEq, Repr

def UrlMode.keyword : UrlMode → String
  | .set => Marker.set.keyword
  | .update => Marker.update.keyword

inductive UrlPart where
  | mode (mode : UrlMode)
  | occupant (slot : Slot) (value : slot.Occupant)

/-- The name of a slot that a command may fill only once. -/
def Slot.exclusiveName? : Slot → Option String
  | .delay => some "delay"
  | .body => some "body"
  | .content => some "content"
  | .setting _ => none

structure UrlRule where
  mode : Option UrlMode := none
  slots : Slots := {}
  target : Option UrlPattern := none
deriving DecidableEq

namespace UrlRule

/-- The words that begin a part of a url command. Every other word is its target. -/
def keywords : List String :=
  ["set", "update", "drop", "delay", "timeout", "proxy", "cache", "status", "map", "redirect",
    "rewrite", "restore", "tcpwrite", "chunked", "speed", "dont302", "do302", "disable304",
    "allow304", "content-type", "request-headers", "response-headers", "host", "plugin"]

/-- What an occupant of a slot is in conflict with, if anything. -/
def rival? (rule : UrlRule) (s : Slot) : Option (String × s.Occupant) := do
  let name ← s.exclusiveName?
  let first ← rule.slots.get s
  return (name, first)

def place (rule : UrlRule) : UrlPart → Except CommandError UrlRule
  | .mode mode =>
    match rule.mode with
    | some first => .error (.conflict "mode" first.keyword mode.keyword)
    | none => .ok { rule with mode := some mode }
  | .occupant s value =>
    match rule.rival? s with
    | some (name, first) => .error (.conflict name (s.command first) (s.command value))
    | none => .ok { rule with slots := rule.slots.put s (some value) }

def update (rule later : UrlRule) : UrlRule :=
  match later.mode.getD .set with
  | .set => { rule with slots := later.slots }
  | .update => { rule with slots := later.slots.onto rule.slots }

def remove (rule : UrlRule) (s : Slot) : UrlRule :=
  { rule with slots := rule.slots.put s none }

/-- Whether a rule without a target, or whose target covers the url, applies to it. -/
def covers (rule : UrlRule) (url : String) : Bool :=
  rule.target.all fun target => target.covers url

def targetWords (rule : UrlRule) : List String :=
  (rule.target.map fun target => Text.quote target.text).toList

def command (rule : UrlRule) : String :=
  Text.joinWith " " <|
    ["url"] ++ (rule.mode.map UrlMode.keyword).toList ++ rule.slots.commands ++ rule.targetWords

end UrlRule

end TrafficPolicy
