import TrafficPolicy.Error

/-!
# Why a request to the program fails

Apart from refused commands, a file may not be read, a configuration may not be understood, a profile or a
domain may not be known, and a domain may be blocked.
-/

namespace TrafficPolicy

inductive FileFault where
  | missing
  /-- The path, or a name in it, is too long. -/
  | nameTooLong
  /-- The path has a null character, which ends paths. -/
  | nullInPath
  | isDirectory
  | notDirectory
  | notText
  | unreadable
deriving DecidableEq, Repr

def FileFault.message : FileFault → String
  | .missing => "no such file or directory"
  | .nameTooLong => "file name too long"
  | .nullInPath => "file name contained an unexpected NUL byte"
  | .isDirectory => "is a directory"
  | .notDirectory => "not a directory"
  | .notText => "stream did not contain valid UTF-8"
  | .unreadable => "cannot be read"

inductive Failure where
  | command (error : CommandError)
  /-- A command in a file, with the number of its line. -/
  | line (path : String) (number : Nat) (error : CommandError)
  | file (fault : FileFault)
  | badConfig (path : String)
  | unknownProfile (name : String)
  | unknownHost
  | blocked (domain : String)
deriving DecidableEq, Repr

def Failure.message : Failure → String
  | .command error => error.message
  | .line path number error => s!"{path}:{number}: {error.message}"
  | .file fault => s!"I/O error: {fault.message}"
  | .badConfig path => s!"failed to parse config {path}"
  | .unknownProfile name => s!"unknown profile '{name}'"
  | .unknownHost => "I/O error: no such host"
  | .blocked domain => s!"domain {domain} is blocked"

end TrafficPolicy
