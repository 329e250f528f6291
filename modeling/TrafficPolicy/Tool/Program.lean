import TrafficPolicy.Toml.Document
import TrafficPolicy.Tool.Arguments
import TrafficPolicy.Tool.Report
import TrafficPolicy.Tool.Setup

/-!
# The program

A configuration is loaded for every request but the checking of files; without one there is only an empty
default profile. Files that it names are sought where it is.
-/

namespace TrafficPolicy

structure Environment where
  registry : Registry
  shuffler : Shuffler
  files : Files
  /-- The addresses of a domain, if it is known. -/
  lookup : String → Option (List Address)
  /-- What is drawn for a random delay. -/
  factor : Float

/-- A path without the separators at its end, and without names there that stand for the same place. -/
def trimPath : List Char → List Char
  | [] => []
  | c :: cs =>
    let rest := trimPath cs
    if c = '/' ∧ (rest = [] ∨ rest = ['.']) then [] else c :: rest

def parentPath (path : String) : String :=
  let cs := trimPath path.toList
  let parent := Text.dropTailWhile (· != '/') cs
  match trimPath parent with
  | [] => if parent.isEmpty then "" else "/"
  | trimmed => String.ofList trimmed

def Config.load (files : Files) (path : String) : Except Failure Config :=
  match files path with
  | .error fault => .error (.file fault)
  | .ok text =>
    match (Toml.Value.read? text).bind (Config.ofValue? false) with
    | none => .error (.badConfig path)
    | some config => .ok config

def Setup.load (env : Environment) (config : Option String) : Except Failure Setup :=
  match config with
  | none => .ok {}
  | some path => do
    let config ← Config.load env.files path
    Setup.ofConfig env.registry env.shuffler env.files (parentPath path) config

def Setup.serve (env : Environment) (config : Option String) (report : Setup → Report × Nat) :
    Report × Nat :=
  match Setup.load env config with
  | .error failure => (⟨[], .error failure⟩, 0)
  | .ok setup => report setup

def Arguments.run (arguments : Arguments) (env : Environment) : Report × Nat :=
  match arguments.request with
  | .check paths => (Report.check env.registry env.files paths, 0)
  | .explain client url =>
    Setup.serve env arguments.config fun setup => (.explain setup.profiles client url, 0)
  | .dns client domain =>
    Setup.serve env arguments.config fun setup =>
      let answerer : Dns.Answerer := ⟨env.lookup, setup.proxyAddresses⟩
      let (report, _, time) := Report.dns setup.profiles answerer client domain env.factor 0
      (report, time)
  | .dump client =>
    Setup.serve env arguments.config fun setup => (.dump setup.profiles client, 0)

/-- The paths of the files that a request needs, given those read so far: first the configuration, then
the files that it names. -/
def Arguments.paths (arguments : Arguments) (files : Files) : List String :=
  match arguments.request, arguments.config with
  | .check paths, _ => paths
  | _, none => []
  | _, some path =>
    match Config.load files path with
    | .error _ => [path]
    | .ok config =>
      path :: config.profiles.entries.flatMap fun profile => profile.2.files.map (joinPath (parentPath path))

end TrafficPolicy
