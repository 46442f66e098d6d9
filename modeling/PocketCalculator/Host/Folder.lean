import PocketCalculator.Host.Configuration
import PocketCalculator.Text.Lines

/-!
# Folders

A folder as a value: the files in it by their names. A path is followed from it name by name, as the
system does it, so that what stands in the way of a path is the first thing that does. Folders
inside it there are none, and of what lies around it only the top is known, and what is there in
every system.
-/

namespace PocketCalculator.Host

/-- The files in a folder by their names. -/
abbrev Folder :=
  List (String × Text.Scanned)

namespace Folder

inductive Place where
  /-- The folder itself. -/
  | here
  | file (content : Text.Scanned)
  /-- The top of the system. -/
  | top
  /-- Another folder, of which nothing is known. -/
  | elsewhere
  deriving DecidableEq, Repr

def maxName : Nat :=
  255

def maxPath : Nat :=
  4095

/-- The folders that are at the top of every system. -/
def topFolders : List String :=
  ["bin", "dev", "etc", "home", "proc", "root", "sys", "tmp", "usr", "var"]

/-- Goes from a place to what has a name there. An empty name means the place itself. -/
def step (folder : Folder) (place : Place) (name : String) : Except Settings.IoError Place :=
  match place with
  | .file _ => .error .notDirectory
  | place =>
    if name = "" || name = "." then .ok place
    else if name = ".." then .ok (if place = .top then .top else .elsewhere)
    else if maxName < name.utf8ByteSize then .error .nameTooLong
    else
      let found := match place with
        | .here => (folder.find? (·.1 = name)).map fun file => .file file.2
        | .top => if topFolders.contains name then some .elsewhere else none
        | _ => none
      match found with
      | some place => .ok place
      | none => .error .notFound

/-- The names that a path goes through. The last is empty after a slash at the end. -/
def names (path : String) : List String :=
  (Text.linesFrom (· == '/') [] (path.toList ++ ['/'])).map String.ofList

def follow (folder : Folder) (path : String) : Except Settings.IoError Place :=
  if path = "" then .error .notFound
  else if maxPath < path.utf8ByteSize then .error .nameTooLong
  else (names path).foldlM folder.step (if path.toList.head? = some '/' then .top else .here)

/-- What is found at a path. Of what lies around, the device that is always empty can be read. -/
def contentAt (folder : Folder) (path : String) : Content :=
  if path = "/dev/null" then .ok []
  else
    match folder.follow path with
    | .error cause => .error cause
    | .ok (.file content) => .ok content
    | .ok _ => .error .isDirectory

end Folder

end PocketCalculator.Host
