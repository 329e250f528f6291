import TrafficPolicy.Clock
import TrafficPolicy.Failure
import TrafficPolicy.Policy.DomainPolicy

/-!
# Answering questions for a domain

A question waits as long as the policy delays it, and then gets the reply that the policy gives. Without a
policy, and under one that has no addresses to hand out, the question is passed on.
-/

namespace TrafficPolicy

inductive Reply where
  | addresses (addresses : List Address)
  | blocked
  /-- The question is passed on. -/
  | ask
deriving DecidableEq

namespace DomainPolicy

/-- What the policy says to a question, and the policy after it. -/
def reply (p : DomainPolicy) (proxyAddresses : List Address) : Reply × DomainPolicy :=
  match p.rule.action with
  | .block => (.blocked, p)
  | .null => (.addresses [], p)
  | .proxy => (.addresses proxyAddresses, p)
  | .resolve =>
    if p.rule.addresses.isEmpty then (.ask, p)
    else
      let (given, p) := p.next
      (.addresses given, p)

/-- How long a question waits; `factor` is drawn for a random delay. -/
def wait (p : DomainPolicy) (factor : Float) : Nat :=
  match p.rule.delay with
  | none => 0
  | some delay => delay.sample factor

end DomainPolicy

namespace Dns

structure Answerer where
  /-- The addresses of a domain, if it is known. -/
  lookup : String → Option (List Address)
  proxyAddresses : List Address

structure Outcome where
  result : Except Failure (List Address)
  policy : Option DomainPolicy
  time : Nat
  /-- Whether the question was passed on. -/
  asked : Bool

def Answerer.ask (answerer : Answerer) (domain : String) : Except Failure (List Address) :=
  match answerer.lookup domain with
  | some addresses => .ok addresses
  | none => .error .unknownHost

def Answerer.answer (answerer : Answerer) (domain : String) (policy : Option DomainPolicy)
    (factor : Float) (now : Nat) : Outcome :=
  match policy with
  | none => { result := answerer.ask domain, policy, time := now, asked := true }
  | some p =>
    let time := Clock.wake now (now + p.wait factor)
    match p.reply answerer.proxyAddresses with
    | (.blocked, p) => { result := .error (.blocked domain), policy := some p, time, asked := false }
    | (.addresses given, p) => { result := .ok given, policy := some p, time, asked := false }
    | (.ask, p) => { result := answerer.ask domain, policy := some p, time, asked := true }

end Dns

end TrafficPolicy
