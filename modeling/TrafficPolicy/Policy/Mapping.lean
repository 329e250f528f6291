import TrafficPolicy.Error
import TrafficPolicy.Regex.Compile
import TrafficPolicy.Regex.Replace
import TrafficPolicy.Text.Blank
import TrafficPolicy.Text.Words

/-!
# Fetching another resource

A mapping names the url to fetch instead, or an expression and a text that its matches are replaced
with, written between slashes. In the expression a slash is written with a backslash before it; the
replacement is taken as it stands.
-/

namespace TrafficPolicy

inductive Mapping where
  | url (target : String)
  | replace (raw : String) (expression : Regex.Expression) (replacement : String)
deriving DecidableEq

namespace Mapping

/-- Splits a text at the first slash that no backslash takes the meaning from. `escaped` tells whether
a backslash stands just before the text. -/
def splitAtSlash : Bool → List Char → Option (List Char × List Char)
  | _, [] => none
  | escaped, c :: cs =>
    if c = '\\' ∧ !escaped then (splitAtSlash true cs).map fun (before, after) => (c :: before, after)
    else if c = '/' ∧ !escaped then some ([], cs)
    else (splitAtSlash false cs).map fun (before, after) => (c :: before, after)

def unescapeSlashes : List Char → List Char
  | '\\' :: '/' :: cs => '/' :: unescapeSlashes cs
  | c :: cs => c :: unescapeSlashes cs
  | [] => []

def betweenSlashes? : List Char → Option (List Char)
  | '/' :: rest => if rest.getLast? = some '/' then some rest.dropLast else none
  | _ => none

/-- The expression and the replacement of a text such as `/old/new/`. -/
def splitReplace (raw : List Char) : Option (List Char × List Char) := do
  let body ← betweenSlashes? raw
  let (before, after) ← splitAtSlash false body
  return (unescapeSlashes before, after)

def readReplace (raw : String) : Except CommandError Mapping :=
  match splitReplace raw.toList with
  | none => .error (.invalidValue "map" raw .notReplacement)
  | some (source, replacement) =>
    match Regex.compile (String.ofList source) with
    | .error fault => .error (.invalidValue "map" raw (.badRegex fault))
    | .ok expression => .ok (.replace raw expression (String.ofList replacement))

def apply (m : Mapping) (url : String) : String :=
  match m with
  | .url target => target
  | .replace _ expression replacement => expression.replaceAll replacement url

def command : Mapping → String
  | .url target => "map " ++ Text.quote target
  | .replace raw _ _ => "map replace " ++ Text.quote raw

def comment : Mapping → String
  | .url target => s!"map to {target}"
  | .replace _ expression replacement =>
    s!"map by replacing /{expression.source}/ with {replacement}"

end Mapping

end TrafficPolicy
