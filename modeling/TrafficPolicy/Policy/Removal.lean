import TrafficPolicy.Policy.Slots

/-!
# Taking policies away

A deletion takes a whole policy away, or all policies of its scope. A removal empties one slot of one
url policy or of all of them.
-/

namespace TrafficPolicy

inductive TargetName where
  | all
  | named (text : String)
deriving DecidableEq, Repr

namespace TargetName

def ofText (text : String) : TargetName :=
  if text = "all" then .all else .named text

def text : TargetName → String
  | .all => "all"
  | .named text => text

end TargetName

inductive Scope where
  | url
  | domain
deriving DecidableEq, Repr

namespace Scope

def keyword : Scope → String
  | .url => "url"
  | .domain => "domain"

/-- What should name the target of a deletion. -/
def expected : Scope → String
  | .url => "a url pattern or all"
  | .domain => "a domain or all"

end Scope

structure Deletion where
  scope : Scope
  target : TargetName
deriving DecidableEq, Repr

namespace Deletion

def command (d : Deletion) : String :=
  d.scope.keyword ++ " delete " ++ Text.quote d.target.text

def comment (d : Deletion) : String :=
  match d.target with
  | .all => "delete every " ++ d.scope.keyword ++ " policy"
  | .named text => "delete the " ++ d.scope.keyword ++ " policy for " ++ text

end Deletion

/-- A keyword with the slot that it names, and where that slot is emptied. -/
structure Removal where
  keyword : String
  slot : Slot
  target : TargetName
  names : Slot.ofKeyword? keyword = some slot
deriving DecidableEq

namespace Removal

def command (r : Removal) : String :=
  "url remove " ++ r.keyword ++ " " ++ Text.quote r.target.text

def comment (r : Removal) : String :=
  match r.target with
  | .all => "remove " ++ r.keyword ++ " from every url policy"
  | .named text => "remove " ++ r.keyword ++ " from " ++ text

end Removal

end TrafficPolicy
