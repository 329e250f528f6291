import TrafficPolicy.Address.Reader
import TrafficPolicy.Target.DomainPattern

/-!
# Tables of hosts

Each line of a table has an address and the domains that have it; what follows a number sign does not
count.
-/

namespace TrafficPolicy.Hosts

/-- The words of a line in front of a number sign. -/
def lineWords (line : List Char) : List String :=
  let spaced := (line.takeWhile (· != '#')).map fun c => if Text.isBlank c then ' ' else c
  ((Text.splitOn ' ' spaced).filter fun word => !word.isEmpty).map String.ofList

def readLine (line : List Char) : List (List Char × Address) :=
  match lineWords line with
  | [] => []
  | first :: domains =>
    match Address.read? first with
    | none => []
    | some address => domains.map fun domain => (normalDomain domain.toList, address)

def lookup (table domain : String) : Option (List Address) :=
  let entries := (Text.splitOn '\n' table.toList).flatMap readLine
  match entries.filter fun entry => entry.1 == normalDomain domain.toList with
  | [] => none
  | found => some (found.map Prod.snd)

end TrafficPolicy.Hosts
