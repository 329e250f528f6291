import TrafficPolicy.Tool.CommandFile
import TrafficPolicy.Tool.Config

/-!
# Setting up profiles

The profiles of a configuration are set up in the order of their names: first the commands of a profile are
applied, then those in its files, and then its clients are bound to it. The first fault ends it.
-/

namespace TrafficPolicy

structure Setup where
  profiles : ProfileSet := {}
  proxyAddresses : List Address := []
deriving DecidableEq

def joinPath (base file : String) : String :=
  if file.startsWith "/" then file
  else if base.isEmpty || base.endsWith "/" then base ++ file
  else base ++ "/" ++ file

namespace Profile

/-- Applies commands; the first that is refused ends it. -/
def applyAll (p : Profile) (registry : Registry) (shuffler : Shuffler) (commands : List String) :
    Except Failure Profile :=
  (commands.foldlM (fun (p : Profile) command => p.apply registry shuffler command) p).mapError .command

def loadAll (p : Profile) (registry : Registry) (shuffler : Shuffler) (files : Files)
    (paths : List String) : Except Failure Profile :=
  paths.foldlM (fun (p : Profile) path =>
    let (result, p) := p.load registry shuffler files path
    result.map fun _ => p) p

end Profile

namespace ProfileSet

def bind (set : ProfileSet) (client : Address) (name : String) : Except Failure ProfileSet :=
  match set.bind? client name with
  | some set => .ok set
  | none => .error (.unknownProfile name)

def configure (set : ProfileSet) (registry : Registry) (shuffler : Shuffler) (files : Files)
    (base name : String) (config : ProfileConfig) : Except Failure ProfileSet := do
  let set := set.create name
  let profile ← ((set.get? name).getD {}).applyAll registry shuffler config.commands
  let profile ← profile.loadAll registry shuffler files (config.files.map (joinPath base))
  config.clients.foldlM (fun (set : ProfileSet) client => set.bind client name) (set.put name profile)

end ProfileSet

def Setup.ofConfig (registry : Registry) (shuffler : Shuffler) (files : Files) (base : String)
    (config : Config) : Except Failure Setup := do
  let profiles ← config.profiles.entries.foldlM (fun (set : ProfileSet) (name, profile) =>
    set.configure registry shuffler files base name profile) ({} : ProfileSet)
  return { profiles, proxyAddresses := config.proxyAddresses }

end TrafficPolicy
