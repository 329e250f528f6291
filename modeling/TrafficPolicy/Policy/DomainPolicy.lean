import TrafficPolicy.Policy.DomainRule

/-!
# Handing out addresses

A domain policy is a rule in force, with the order in which its addresses are handed out and the place
where the next turn begins. One turn hands out as many addresses as the limit says, from the start of the
order; a circular rule goes on where the last turn ended.
-/

namespace TrafficPolicy

structure Shuffler where
  order : List Address → List Address
  perm : ∀ addresses, (order addresses).Perm addresses

def Shuffler.inOrder : Shuffler where
  order := id
  perm := List.Perm.refl

structure DomainPolicy where
  rule : DomainRule
  order : List Address
  cursor : Nat
deriving DecidableEq

namespace DomainPolicy

def ofRule (shuffler : Shuffler) (rule : DomainRule) : DomainPolicy where
  rule := rule
  order := if rule.shuffle then shuffler.order rule.addresses else rule.addresses
  cursor := 0

/-- Whether the order and the place in it are kept when `later` replaces the rule. -/
def keepsRotation (rule later : DomainRule) : Bool :=
  rule.addresses == later.addresses && rule.shuffle == later.shuffle && rule.circular &&
    later.circular

def update (p : DomainPolicy) (shuffler : Shuffler) (later : DomainRule) : DomainPolicy :=
  if keepsRotation p.rule later then { p with rule := later } else ofRule shuffler later

/-- How many addresses one turn hands out. -/
def count (p : DomainPolicy) : Nat :=
  min (p.rule.limit.getD p.order.length) p.order.length

/-- `count` addresses from a place on, beginning again at the end of the order. -/
def window (order : List Address) (start count : Nat) : List Address :=
  (List.range count).filterMap fun i => order[(start + i) % order.length]?

def next (p : DomainPolicy) : List Address × DomainPolicy :=
  if p.count = 0 then ([], p)
  else if p.rule.circular then
    (window p.order p.cursor p.count,
      { p with cursor := (p.cursor + p.count) % p.order.length })
  else (p.order.take p.count, p)

end DomainPolicy

end TrafficPolicy
