import TrafficPolicy.Policy.UrlRule

/-!
# Url policies

A url policy is a rule with the rules that it inherits from, the nearest first. What a slot holds in
effect is what the first of these rules with an occupant for it has there.
-/

namespace TrafficPolicy

structure UrlPolicy where
  rule : UrlRule
  defaults : List UrlRule := []
deriving DecidableEq

namespace UrlPolicy

def chain (p : UrlPolicy) : List UrlRule :=
  p.rule :: p.defaults

/-- What a slot holds in effect. -/
def get (p : UrlPolicy) (s : Slot) : Option s.Occupant :=
  p.chain.findSome? fun rule => rule.slots.get s

/-- The slots that are filled in effect, in their order: those that a rule of the chain fills. -/
def filled (p : UrlPolicy) : List Slot :=
  Slot.all.filter fun s => p.chain.any fun rule => s ∈ rule.slots.filled

def isDefault (p : UrlPolicy) : Bool :=
  p.rule.target.isNone

def drop? (p : UrlPolicy) : Option DelayPolicy :=
  ((p.get .delay).filter fun d => d.kind = .drop) <|>
    ((p.get .body).filter fun d => d.kind = .drop)

def text? (p : UrlPolicy) (s : Slot) : Option String :=
  (p.get s).bind s.text?

/-- The description of a slot; inherited occupants are marked. -/
def slotComment? (p : UrlPolicy) (s : Slot) : Option String :=
  match p.rule.slots.get s with
  | some own => some (s.comment own)
  | none => (p.get s).map fun inherited => "[default: " ++ s.comment inherited ++ "]"

def label (p : UrlPolicy) : String :=
  (p.rule.target.map UrlPattern.text).getD "default"

def comment (p : UrlPolicy) : String :=
  let parts := p.filled.filterMap p.slotComment?
  p.label ++ ": " ++ if parts.isEmpty then "pass through" else Text.joinWith "; " parts

end UrlPolicy

end TrafficPolicy
