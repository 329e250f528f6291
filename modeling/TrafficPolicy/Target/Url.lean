import TrafficPolicy.Text.Percent

/-!
# Parts of a url

A url is split into a domain, a path and the pairs of its query. The scheme `http` may be left out, and
nothing else is taken for a scheme.
-/

namespace TrafficPolicy

/-- A url in the parts that patterns compare. -/
structure Url where
  domain : Option String
  path : String
  query : List (String × String)
deriving DecidableEq, Repr

namespace Url

def readPair (part : List Char) : String × String :=
  match Text.splitOnce '=' part with
  | some (key, value) =>
    (String.ofList (Text.Percent.decodeComponent key),
      String.ofList (Text.Percent.decodeComponent value))
  | none => (String.ofList (Text.Percent.decodeComponent part), "")

/-- The pairs of a query; empty parts are left out. -/
def readQuery (query : List Char) : List (String × String) :=
  ((Text.splitOn '&' query).filter fun part => !part.isEmpty).map readPair

def endsDomain (c : Char) : Bool :=
  c == '/' || c == '?'

/-- Splits a url at its first slash or question mark, and what follows at its first question mark. -/
def read (text : String) : Url :=
  let text := Text.trim text.toList
  let text := (Text.stripStart? "http://".toList text).getD text
  let domain := text.takeWhile fun c => !endsDomain c
  let rest := text.dropWhile fun c => !endsDomain c
  let (path, query) := (Text.splitOnce '?' rest).getD (rest, [])
  { domain := if domain.isEmpty then none else some (String.ofList domain)
    path := String.ofList path
    query := readQuery query }

end Url

end TrafficPolicy
