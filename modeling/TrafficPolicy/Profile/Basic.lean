import TrafficPolicy.Grammar.Command
import TrafficPolicy.Policy.DomainPolicy
import TrafficPolicy.Profile.DropTracker

/-!
# Profiles

A profile holds the policies for one group of clients: url policies by target with one that the others
inherit from, and domain policies by target with one for all domains. A command for a target that is
already there changes its policy in place.
-/

namespace TrafficPolicy

structure Profile where
  /-- The url policy without a target. -/
  defaultUrl : Option UrlPolicy := none
  /-- The url policies with a target, in the order of definition. -/
  urls : List UrlPolicy := []
  /-- The policy for all domains. -/
  defaultDomain : Option DomainPolicy := none
  /-- The domain policies with a pattern, in the order of definition. -/
  domains : List DomainPolicy := []
  drops : DropTracker := {}
deriving DecidableEq

def UrlPolicy.target? (p : UrlPolicy) : Option String :=
  p.rule.target.map UrlPattern.text

def UrlPolicy.mapRule (p : UrlPolicy) (f : UrlRule → UrlRule) : UrlPolicy :=
  { p with rule := f p.rule }

/-- The policy with the rules that it inherits from replaced by those of `default?`. -/
def UrlPolicy.link (p : UrlPolicy) (default? : Option UrlPolicy) : UrlPolicy :=
  { p with defaults := (default?.map UrlPolicy.chain).getD [] }

/-- Merges a later rule into a policy. What is stored has no mode. -/
def UrlPolicy.merge (p : UrlPolicy) (later : UrlRule) : UrlPolicy :=
  p.mapRule fun rule => { rule.update later with mode := none }

def DomainPolicy.key (p : DomainPolicy) : List Char :=
  normalDomain p.rule.target.text.toList

/-- The target text of the url policy that a name stands for. -/
def urlKey? (name : String) : Option String :=
  match UrlPattern.read name with
  | .ok pattern => some pattern.text
  | .error _ => none

namespace Profile

/-- The key of the default in the memory of first requests. -/
def defaultKey : String := ""

/-- Lets every policy with a target inherit from the current default. -/
def relink (p : Profile) : Profile :=
  { p with urls := p.urls.map fun url => url.link p.defaultUrl }

def hasUrl (p : Profile) (target : String) : Bool :=
  p.urls.any fun url => url.target? == some target

def mapUrl (p : Profile) (target : String) (f : UrlPolicy → UrlPolicy) : Profile :=
  { p with urls := p.urls.map fun url => if url.target? = some target then f url else url }

def applyDefault (p : Profile) (rule : UrlRule) : Profile :=
  let merged := (p.defaultUrl.getD ⟨{}, []⟩).merge rule
  let p := { p with defaultUrl := some merged }.relink
  { p with drops := p.drops.clear }

def applyTargeted (p : Profile) (rule : UrlRule) (target : String) : Profile :=
  let p :=
    if p.hasUrl target then p.mapUrl target fun url => url.merge rule
    else
      { p with urls := p.urls ++ [UrlPolicy.link ⟨{ rule with mode := none }, []⟩ p.defaultUrl] }
  { p with drops := p.drops.reset target }

def applyUrl (p : Profile) (rule : UrlRule) : Profile :=
  match rule.target with
  | none => p.applyDefault rule
  | some target => p.applyTargeted rule target.text

def applyRemoval (p : Profile) (removal : Removal) : Profile :=
  let trim (url : UrlPolicy) : UrlPolicy := url.mapRule fun rule => rule.remove removal.slot
  match removal.target with
  | .all =>
    { p with defaultUrl := p.defaultUrl.map trim, urls := p.urls.map trim }.relink
  | .named name =>
    match urlKey? name with
    | none => p
    | some key => p.mapUrl key trim

def applyDeletion (p : Profile) (deletion : Deletion) : Profile :=
  match deletion.scope, deletion.target with
  | .url, .all => { p with urls := [], defaultUrl := none, drops := p.drops.clear }
  | .url, .named name =>
    match urlKey? name with
    | none => p
    | some key =>
      { p with
        urls := p.urls.filter fun url => url.target? != some key
        drops := p.drops.reset key }
  | .domain, .all => { p with domains := [], defaultDomain := none }
  | .domain, .named name =>
    { p with domains := p.domains.filter fun domain => domain.key != normalDomain name.toList }

/-- The policy of a rule, which goes on where an earlier policy for the same domains was. -/
def issue (shuffler : Shuffler) (earlier? : Option DomainPolicy) (rule : DomainRule) :
    DomainPolicy :=
  match earlier? with
  | some earlier => earlier.update shuffler rule
  | none => .ofRule shuffler rule

def applyDomain (p : Profile) (shuffler : Shuffler) (rule : DomainRule) : Profile :=
  match rule.target with
  | .all => { p with defaultDomain := some (issue shuffler p.defaultDomain rule) }
  | .pattern pattern =>
    if p.domains.any fun domain => domain.key == pattern.name then
      { p with
        domains := p.domains.map fun domain =>
          if domain.key = pattern.name then domain.update shuffler rule else domain }
    else { p with domains := p.domains ++ [.ofRule shuffler rule] }

def applyPolicy (p : Profile) (shuffler : Shuffler) : Policy → Except CommandError Profile
  | .url rule => .ok (p.applyUrl rule)
  | .remove removal => .ok (p.applyRemoval removal)
  | .delete deletion => .ok (p.applyDeletion deletion)
  | .domain rule => .ok (p.applyDomain shuffler rule)
  | other => .error (.notApplicable other.command)

def apply (p : Profile) (registry : Registry) (shuffler : Shuffler) (command : String) :
    Except CommandError Profile := do
  p.applyPolicy shuffler (← registry.read command)

def urlPolicies (p : Profile) : List UrlPolicy :=
  p.defaultUrl.toList ++ p.urls

def domainPolicies (p : Profile) : List DomainPolicy :=
  p.defaultDomain.toList ++ p.domains

/-- Commands that give the profile again when they are applied in order. -/
def commands (p : Profile) : List String :=
  p.urlPolicies.map (fun url => url.rule.command) ++
    p.domainPolicies.map fun domain => domain.rule.command

end Profile

end TrafficPolicy
