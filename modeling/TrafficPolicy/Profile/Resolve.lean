import TrafficPolicy.Profile.Basic

/-!
# Finding the policy that counts

Of the url policies whose target covers a url, the most specific one counts. Of the domain policies whose
pattern covers a domain, one without a star counts before one with a star, and then the longer pattern.
Among equals the earliest counts. Where no target fits, the default counts.
-/

namespace TrafficPolicy

/-- The first member that no member exceeds. -/
def firstGreatest? {α : Type} (exceeds : α → α → Bool) (items : List α) : Option α :=
  items.foldl (fun best item =>
    match best with
    | none => some item
    | some current => if exceeds item current then some item else best) none

inductive DomainPlace where
  | fallback
  | pattern (index : Nat)
deriving DecidableEq, Repr

/-- How well a pattern fits the domains that it covers. -/
structure DomainRank where
  plain : Bool
  bytes : Nat
deriving DecidableEq, Repr

def DomainRank.exceeds (a b : DomainRank) : Bool :=
  if a.plain != b.plain then a.plain else b.bytes < a.bytes

def DomainPattern.rank (pattern : DomainPattern) : DomainRank where
  plain := !pattern.isWildcard
  bytes := pattern.text.utf8ByteSize

namespace Profile

def urlCandidates (p : Profile) (url : Url) : List (Specificity × UrlPolicy) :=
  p.urls.filterMap fun policy =>
    policy.rule.target.bind fun target =>
      if target.coversUrl url then some (target.specificity, policy) else none

def resolveUrl (p : Profile) (url : String) : Option UrlPolicy :=
  ((firstGreatest? (fun a b => a.1.exceeds b.1) (p.urlCandidates (Url.read url))).map Prod.snd) <|>
    p.defaultUrl

def domainCandidates (p : Profile) (domain : String) : List (DomainRank × DomainPlace) :=
  p.domains.zipIdx.filterMap fun (policy, index) =>
    match policy.rule.target with
    | .all => none
    | .pattern pattern =>
      if pattern.covers domain then some (pattern.rank, .pattern index) else none

def domainPlace? (p : Profile) (domain : String) : Option DomainPlace :=
  ((firstGreatest? (fun a b => a.1.exceeds b.1) (p.domainCandidates domain)).map Prod.snd) <|>
    p.defaultDomain.map fun _ => .fallback

def domainAt? (p : Profile) : DomainPlace → Option DomainPolicy
  | .fallback => p.defaultDomain
  | .pattern index => p.domains[index]?

def putDomain (p : Profile) (policy : DomainPolicy) : DomainPlace → Profile
  | .fallback => { p with defaultDomain := some policy }
  | .pattern index => { p with domains := p.domains.set index policy }

def resolveDomain (p : Profile) (domain : String) : Option DomainPolicy :=
  (p.domainPlace? domain).bind p.domainAt?

/-- Uses the policy that counts for a domain and keeps what becomes of it. -/
def useDomain {α : Type} (p : Profile) (domain : String)
    (use : Option DomainPolicy → α × Option DomainPolicy) : α × Profile :=
  match p.domainPlace? domain with
  | none => ((use none).1, p)
  | some place =>
    match use (p.domainAt? place) with
    | (result, some policy) => (result, p.putDomain policy place)
    | (result, none) => (result, p)

def shouldDrop (p : Profile) (policy : UrlPolicy) (now : Nat) : Bool × Profile :=
  match policy.drop? with
  | none => (false, p)
  | some drop =>
    let (dropped, drops) := p.drops.shouldDrop (policy.target?.getD defaultKey) drop now
    (dropped, { p with drops })

end Profile

end TrafficPolicy
