import TrafficPolicy.Profile.Resolve

/-!
# Profiles by name

A set of profiles has one named `default`, and others that have been created. A client may be bound to a
profile; all others are served by the default one.
-/

namespace TrafficPolicy

structure ProfileSet where
  default : Profile := {}
  /-- The other profiles by name, in the order of creation. -/
  named : List (String × Profile) := []
  /-- The profile names of clients. -/
  clients : List (Address × String) := []
deriving DecidableEq

namespace ProfileSet

/-- The name of the profile of clients without a binding. -/
def defaultName : String := "default"

def get? (set : ProfileSet) (name : String) : Option Profile :=
  if name = defaultName then some set.default else set.named.lookup name

/-- Creates a profile, unless there is one of this name. -/
def create (set : ProfileSet) (name : String) : ProfileSet :=
  match set.get? name with
  | some _ => set
  | none => { set with named := set.named ++ [(name, {})] }

/-- Replaces the profile of a name that is there. -/
def put (set : ProfileSet) (name : String) (profile : Profile) : ProfileSet :=
  if name = defaultName then { set with default := profile }
  else
    { set with
      named := set.named.map fun entry => if entry.1 = name then (name, profile) else entry }

/-- Lets a profile serve a client; `none` if there is no profile of this name. -/
def bind? (set : ProfileSet) (client : Address) (name : String) : Option ProfileSet :=
  if (set.get? name).isSome then
    some { set with
      clients := (client, name) :: set.clients.filter fun entry => entry.1 != client }
  else none

def nameFor (set : ProfileSet) (client? : Option Address) : String :=
  match client?.bind fun client => set.clients.lookup client with
  | none => defaultName
  | some name => if (set.named.lookup name).isSome then name else defaultName

def forClient (set : ProfileSet) (client? : Option Address) : Profile :=
  (set.get? (set.nameFor client?)).getD set.default

/-- The names of the profiles, the default first and the others in the order of their characters. -/
def names (set : ProfileSet) : List String :=
  defaultName :: (set.named.map Prod.fst).mergeSort fun a b => a ≤ b

end ProfileSet

end TrafficPolicy
