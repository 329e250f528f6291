import TrafficPolicy.Dns
import TrafficPolicy.Tool.CommandFile

/-!
# Reports

What the program prints: the commands of files with their meaning, the policy for a url, the answer to a
question, and a profile as commands. A report may end in a failure after something has been printed.
-/

namespace TrafficPolicy

structure Report where
  lines : List String
  result : Except Failure Unit

namespace Report

def text (r : Report) : String :=
  String.join (r.lines.map fun line => line ++ "\n")

def success (lines : List String) : Report := ⟨lines, .ok ()⟩

/-- One report after the other; the first failure is the result. -/
def append (first second : Report) : Report where
  lines := first.lines ++ second.lines
  result := match first.result with
    | .error failure => .error failure
    | .ok _ => second.result

/-- The width to which a command is filled up with spaces. -/
def commandWidth : Nat := 48

def padded (text : String) : String :=
  text ++ String.ofList (List.replicate (commandWidth - text.length) ' ')

def ofLine (registry : Registry) (path : String) (line : NumberedCommand) : Report :=
  match registry.read line.command with
  | .ok policy => success [padded policy.command ++ " # " ++ policy.comment]
  | .error error => ⟨[], .error (.line path line.number error)⟩

def ofFile (registry : Registry) (files : Files) (path : String) : Report :=
  (success ["# " ++ path]).append <|
    match CommandFile.read files path with
    | .error failure => ⟨[], .error failure⟩
    | .ok lines => (lines.map (ofLine registry path)).foldl append (success [])

/-- The commands of files in normal form, with their descriptions. Bad lines are passed over, and the first
fault is the result. -/
def check (registry : Registry) (files : Files) (paths : List String) : Report :=
  (paths.map (ofFile registry files)).foldl append (success [])

/-- What is fetched for a url instead of it. -/
def fetchLine (policy : UrlPolicy) (url : String) : List String :=
  match policy.get .content with
  | some (.map mapping) => ["fetch:   " ++ mapping.apply url]
  | _ => []

def explain (set : ProfileSet) (client : Option Address) (url : String) : Report :=
  success <| ("profile: " ++ set.nameFor client) ::
    match (set.forClient client).resolveUrl url with
    | none => ["policy:  none, pass through"]
    | some policy =>
      ["policy:  " ++ policy.rule.command, "effect:  " ++ policy.comment] ++ fetchLine policy url

def dns (set : ProfileSet) (answerer : Dns.Answerer) (client : Option Address) (domain : String)
    (factor : Float) (now : Nat) : Report × ProfileSet × Nat :=
  let name := set.nameFor client
  let profile := set.forClient client
  let (outcome, profile') := profile.useDomain domain fun policy =>
    let outcome := answerer.answer domain policy factor now
    (outcome, outcome.policy)
  let policyLines :=
    ((profile.resolveDomain domain).map fun p => "policy:  " ++ p.rule.command).toList
  let report : Report :=
    match outcome.result with
    | .error failure => ⟨policyLines, .error failure⟩
    | .ok [] => success (policyLines ++ ["no addresses"])
    | .ok addresses => success (policyLines ++ addresses.map Address.text)
  (report, set.put name profile', outcome.time)

def dump (set : ProfileSet) (client : Option Address) : Report :=
  success (("# profile " ++ set.nameFor client) :: (set.forClient client).commands)

end Report

end TrafficPolicy
