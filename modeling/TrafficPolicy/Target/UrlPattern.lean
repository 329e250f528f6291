import TrafficPolicy.Target.DomainPattern
import TrafficPolicy.Target.Url

/-!
# Url patterns

A pattern is written like a url. Its domain is a domain pattern, and a pattern without a domain covers
every domain; its path has to be the start of the path of the url, and its query pairs have to be among
those of the url. Of several patterns that cover a url the one of the greatest specificity counts.
-/

namespace TrafficPolicy

structure UrlPattern where
  text : String
  domain : Option DomainPattern
  path : String
  query : List (String × String)
deriving DecidableEq

/-- How specific a pattern is, the most important measure first. -/
structure Specificity where
  hasDomain : Bool
  plainDomain : Bool
  pathBytes : Nat
  queryPairs : Nat
deriving DecidableEq, Repr

def Specificity.exceeds (a b : Specificity) : Bool :=
  if a.hasDomain != b.hasDomain then a.hasDomain
  else if a.plainDomain != b.plainDomain then a.plainDomain
  else if a.pathBytes != b.pathBytes then b.pathBytes < a.pathBytes
  else b.queryPairs < a.queryPairs

namespace UrlPattern

def read (text : String) : Except CommandError UrlPattern := do
  if (Text.trim text.toList).isEmpty then .error (.invalidPattern text .emptyUrl)
  else
    let url := Url.read text
    let domain ← match url.domain with
      | none => .ok none
      | some domain => (DomainPattern.read domain).map some
    return { text, domain, path := url.path, query := url.query }

/-- What has been read is the text in its parts. -/
theorem parts_of_read {text : String} {pattern : UrlPattern} (h : read text = .ok pattern) :
    pattern.text = text ∧ pattern.domain.map DomainPattern.text = (Url.read text).domain ∧
      pattern.path = (Url.read text).path ∧ pattern.query = (Url.read text).query := by
  unfold read at h
  split at h
  · cases h
  · cases hdomain : (Url.read text).domain with
    | none =>
      simp only [hdomain, bind, Except.bind, pure, Except.pure] at h
      cases h
      exact ⟨rfl, rfl, rfl, rfl⟩
    | some domain =>
      simp only [hdomain, Except.map, bind, Except.bind, pure, Except.pure] at h
      cases hread : DomainPattern.read domain with
      | error e =>
        rw [hread] at h
        cases h
      | ok name =>
        rw [hread] at h
        cases h
        exact ⟨rfl, congrArg some (DomainPattern.text_of_read hread), rfl, rfl⟩

/-- The path of a url; an empty path is the root. -/
def pathOf (url : Url) : List Char :=
  if url.path.isEmpty then ['/'] else url.path.toList

def coversDomain (p : UrlPattern) (url : Url) : Bool :=
  match p.domain with
  | none => true
  | some pattern => url.domain.any pattern.covers

def coversUrl (p : UrlPattern) (url : Url) : Bool :=
  p.coversDomain url && p.path.toList.isPrefixOf (pathOf url) &&
    p.query.all fun pair => url.query.contains pair

def covers (p : UrlPattern) (url : String) : Bool :=
  p.coversUrl (Url.read url)

def specificity (p : UrlPattern) : Specificity where
  hasDomain := p.domain.isSome
  plainDomain := p.domain.any fun d => !d.isWildcard
  pathBytes := p.path.utf8ByteSize
  queryPairs := p.query.length

end UrlPattern

end TrafficPolicy
