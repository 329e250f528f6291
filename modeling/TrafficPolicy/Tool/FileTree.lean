import TrafficPolicy.Failure
import TrafficPolicy.Text.Percent

/-!
# Files

Commands and configurations are read from files by path. A tree of files that are held in memory answers
like a directory that holds them and in which the paths start. Paths may also lead out of the tree: up to
the directories around it, and from the root of the system on.
-/

namespace TrafficPolicy

/-- How the text of a file is got. -/
abbrev Files := String → Except FileFault String

/-- Files by path, the names of which are given one by one. -/
structure FileTree where
  files : List (List String × List UInt8)

inductive Place where
  /-- A place in the tree, by the names from its top on. -/
  | inside (names : List String)
  /-- A directory that the tree lies in. -/
  | above
  /-- A place by the names from the root of the system on. -/
  | system (names : List String)
deriving DecidableEq, Repr

namespace Place

def parent : Place → Place
  | inside [] => above
  | inside names => inside names.dropLast
  | above => above
  | system names => system names.dropLast

/-- The place of a name in a directory. Of the directories around the tree no names are known. -/
def child? (name : String) : Place → Option Place
  | inside names => some (inside (names ++ [name]))
  | above => none
  | system names => some (system (names ++ [name]))

end Place

def systemDirectories : List String :=
  ["bin", "boot", "dev", "etc", "home", "lib", "media", "mnt", "opt", "proc", "root", "run", "sbin",
    "srv", "sys", "tmp", "usr", "var"]

namespace FileTree

def names (path : String) : List String :=
  (Text.splitOn '/' path.toList).map String.ofList

def ofList (files : List (String × List UInt8)) : FileTree :=
  ⟨files.map fun (path, bytes) => (names path, bytes)⟩

/-- The content of the file at a place. Of the files of the system only the empty one is known. -/
def content? (tree : FileTree) : Place → Option (List UInt8)
  | .inside names => tree.files.lookup names
  | .above => none
  | .system names => if names = ["dev", "null"] then some [] else none

def isDirectory (tree : FileTree) : Place → Bool
  | .inside names =>
    names.isEmpty || tree.files.any fun (path, _) =>
      names.isPrefixOf path && names.length < path.length
  | .above => true
  | .system [] => true
  | .system [name] => systemDirectories.contains name
  | .system _ => false

/-- The greatest length of a name in a path, in bytes. -/
def maxName : Nat := 255

def maxPath : Nat := 4095

def enter (tree : FileTree) (place : Place) (name : String) : Except FileFault Place :=
  if (tree.content? place).isSome then .error .notDirectory
  else if name = "" ∨ name = "." then .ok place
  else if name = ".." then .ok place.parent
  else if maxName < name.utf8ByteSize then .error .nameTooLong
  else
    match place.child? name with
    | none => .error .missing
    | some next =>
      if (tree.content? next).isSome || tree.isDirectory next then .ok next else .error .missing

def follow (tree : FileTree) (path : String) : Except FileFault Place :=
  (names path).foldlM tree.enter (if path.startsWith "/" then .system [] else .inside [])

def read (tree : FileTree) : Files := fun path =>
  if path.contains '\x00' then .error .nullInPath
  else if path.isEmpty then .error .missing
  else if maxPath < path.utf8ByteSize then .error .nameTooLong
  else
    match tree.follow path with
    | .error fault => .error fault
    | .ok place =>
      match tree.content? place with
      | none => .error .isDirectory
      | some bytes =>
        match Text.ofUtf8? bytes with
        | none => .error .notText
        | some text => .ok (String.ofList text)

end FileTree

end TrafficPolicy
