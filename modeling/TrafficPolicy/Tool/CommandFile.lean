import TrafficPolicy.Profile.Set
import TrafficPolicy.Tool.FileTree

/-!
# Command files

A command file has one command in each line. Blanks around it do not count; empty lines and lines that
begin with a number sign are passed over.
-/

namespace TrafficPolicy

/-- A command with the number of its line, counted from one. -/
structure NumberedCommand where
  number : Nat
  command : String
deriving DecidableEq, Repr

namespace CommandFile

/-- Whether a line, with no blanks around it, holds no command. -/
def isPassedOver (line : List Char) : Bool :=
  line.isEmpty || line.head? == some '#'

def command? (line : List Char) : Option String :=
  if isPassedOver (Text.trim line) then none else some (String.ofList (Text.trim line))

def commands (text : String) : List NumberedCommand :=
  ((Text.splitOn '\n' text.toList).zipIdx 1).filterMap fun (line, number) =>
    (command? line).map (NumberedCommand.mk number)

theorem map_command_commands (text : String) :
    (commands text).map NumberedCommand.command = (Text.splitOn '\n' text.toList).filterMap command? := by
  have hline : (fun entry : List Char × Nat =>
      ((command? entry.1).map (NumberedCommand.mk entry.2)).map NumberedCommand.command) = command? ∘ Prod.fst := by
    funext entry
    rw [Function.comp_apply]
    cases command? entry.1 <;> rfl
  rw [commands, List.map_filterMap, hline, ← List.filterMap_map, List.zipIdx_map_fst]

def read (files : Files) (path : String) : Except Failure (List NumberedCommand) :=
  ((files path).map commands).mapError .file

end CommandFile

namespace Profile

def applyLines (p : Profile) (registry : Registry) (shuffler : Shuffler) (path : String) :
    List NumberedCommand → Except Failure Unit × Profile
  | [] => (.ok (), p)
  | line :: rest =>
    match p.apply registry shuffler line.command with
    | .error e => (.error (.line path line.number e), p)
    | .ok p => p.applyLines registry shuffler path rest

/-- Applies the commands in a file up to the first that is refused. -/
def load (p : Profile) (registry : Registry) (shuffler : Shuffler) (files : Files)
    (path : String) : Except Failure Unit × Profile :=
  match CommandFile.read files path with
  | .error e => (.error e, p)
  | .ok lines => p.applyLines registry shuffler path lines

end Profile

end TrafficPolicy
