import TrafficPolicy.Policy.Shuffle
import TrafficPolicy.Tool.Hosts
import TrafficPolicy.Tool.Program

/-!
# The command line program

It reads the files that a request needs, prints the report, and ends with 0, with 1 if the report ends in a
failure, or with 2 if the command line gives no request. Domains are looked up in the table of hosts.
-/

namespace TrafficPolicy

def usage : String :=
  Text.joinWith "\n" [
    "Usage: traffic-policy [--config PATH] COMMAND",
    "",
    "check FILE...                    parse command files and print each command in normalized form",
    "explain [--client ADDRESS] URL   show the url policy a client would get for a URL",
    "dns [--client ADDRESS] DOMAIN    answer a DNS question the way the proxy would",
    "dump [--client ADDRESS]          print a profile as commands"]

def version : String := "traffic-policy 0.0.1"

def hostsPath : String := "/etc/hosts"

def readText (path : String) : IO (Except FileFault String) := do
  if path.contains '\x00' then return .error .nullInPath
  try
    let bytes ← IO.FS.readBinFile path
    return match String.fromUTF8? bytes with
      | some text => .ok text
      | none => .error .notText
  catch error =>
    return match error with
      | .noFileOrDirectory .. => .error .missing
      | .invalidArgument .. => .error .nameTooLong
      | .inappropriateType .. => .error .isDirectory
      | _ => .error .unreadable

def readFiles (paths : List String) : IO Files := do
  let table ← paths.mapM fun path => return (path, ← readText path)
  return fun path => (table.lookup path).getD (.error .missing)

/-- Draws a number between zero and one. -/
def drawFactor : IO Float := do
  let n ← IO.rand 0 0x1fffffffffffff
  return Float.ofNat n / Float.ofNat 0x20000000000000

/-- Waits for a number of nanoseconds. -/
def pauseFor (time : Nat) : IO Unit :=
  IO.sleep (UInt32.ofNat (time / Clock.tick))

def serve (arguments : Arguments) : IO UInt32 := do
  let first ← readFiles (arguments.paths fun _ => .error .missing)
  let files ← readFiles (arguments.paths first)
  let hosts := ((← readText hostsPath).toOption).getD ""
  let environment : Environment :=
    { registry := Registry.standard
      shuffler := .ofSeed (← IO.rand 0 0x40000000)
      files
      lookup := Hosts.lookup hosts
      factor := ← drawFactor }
  let (report, time) := arguments.run environment
  pauseFor time
  IO.print report.text
  match report.result with
  | .ok _ => return 0
  | .error failure =>
    IO.eprintln ("Error: " ++ failure.message)
    return 1

end TrafficPolicy

open TrafficPolicy in
def main (texts : List String) : IO UInt32 := do
  match Arguments.read texts with
  | .ok arguments => serve arguments
  | .error .helpWanted =>
    IO.println usage
    return 0
  | .error .versionWanted =>
    IO.println version
    return 0
  | .error error =>
    IO.eprintln ("error: " ++ error.message ++ "\n\n" ++ usage)
    return 2
