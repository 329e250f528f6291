import TrafficPolicy.Regex.Compile
import TrafficPolicy.Regex.Search
import TrafficPolicy.Target.Glob

/-!
# Domain patterns

Domains are compared without blanks around them, without the points at their end and in lower case. A
pattern with a star is compared as a regular expression, which must not be too long to be searched for.
-/

namespace TrafficPolicy

/-- The form in which domains are compared. -/
def normalDomain (domain : List Char) : List Char :=
  Text.lower (Text.dropTailWhile (· == '.') (Text.trim domain))

def normalDomainText (domain : String) : String :=
  String.ofList (normalDomain domain.toList)

inductive DomainMatcher where
  | exact (name : List Char)
  | wildcard (expression : Regex.Expression)
deriving DecidableEq

namespace DomainMatcher

def read (name : List Char) : Except PatternFault DomainMatcher :=
  if name = [] then .error .emptyDomain
  else if name.contains '*' then
    match Regex.compile (String.ofList (Glob.expression name)) with
    | .error fault => .error (.badRegex fault)
    | .ok expression => .ok (.wildcard expression)
  else .ok (.exact name)

def covers (m : DomainMatcher) (domain : List Char) : Bool :=
  match m with
  | .exact name => name == domain
  | .wildcard expression => expression.isMatch domain

end DomainMatcher

structure DomainPattern where
  text : String
  matcher : DomainMatcher
  built : DomainMatcher.read (normalDomain text.toList) = .ok matcher
deriving DecidableEq

namespace DomainPattern

def name (p : DomainPattern) : List Char :=
  normalDomain p.text.toList

def read (text : String) : Except CommandError DomainPattern :=
  match h : DomainMatcher.read (normalDomain text.toList) with
  | .error fault => .error (.invalidPattern text fault)
  | .ok matcher => .ok ⟨text, matcher, h⟩

theorem text_of_read {text : String} {pattern : DomainPattern} (h : read text = .ok pattern) :
    pattern.text = text := by
  unfold read at h
  split at h <;> cases h
  rfl

theorem read_text (p : DomainPattern) : read p.text = .ok p := by
  unfold read
  split
  · rename_i h
    rw [p.built] at h
    cases h
  · rename_i h
    obtain rfl := Except.ok.inj (h.symm.trans p.built)
    rfl

def isWildcard (p : DomainPattern) : Bool :=
  match p.matcher with
  | .exact _ => false
  | .wildcard _ => true

def covers (p : DomainPattern) (domain : String) : Bool :=
  p.matcher.covers (normalDomain domain.toList)

end DomainPattern

end TrafficPolicy
