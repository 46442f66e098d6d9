import PocketCalculator.Json.Read
import PocketCalculator.Json.Write
import PocketCalculator.Settings.Table

/-!
# Settings files

Overrides are kept in a file as JSON, with the version of the format. A file of another version is
refused as a whole.
-/

namespace PocketCalculator.Settings

/-- Why a file could not be read from the disk. -/
inductive IoError where
  | notFound
  | isDirectory
  | notDirectory
  | nameTooLong
  | denied
  /-- The content should be text and is not. -/
  | notText
  | other (description : String)
  deriving DecidableEq, Repr

def IoError.message : IoError → String
  | notFound => "No such file or directory (os error 2)"
  | isDirectory => "Is a directory (os error 21)"
  | notDirectory => "Not a directory (os error 20)"
  | nameTooLong => "File name too long (os error 36)"
  | denied => "Permission denied (os error 13)"
  | notText => "stream did not contain valid UTF-8"
  | other description => description

inductive FileError where
  | malformed
  | unsupportedVersion (version : UInt32)
  | io (cause : IoError)
  deriving DecidableEq, Repr

def FileError.message : FileError → String
  | malformed => "Failed to deserialize settings: this is no settings file"
  | unsupportedVersion version => "Unsupported settings version: " ++ toString version.toNat
  | io cause => "Settings file I/O failed: " ++ cause.message

namespace Value

def toJson : Value → Json
  | integer value => .object [("Integer", .integer value.toInt)]
  | string text => .object [("String", .string text)]

/-- Whether an integer is one of a setting. -/
def inRange (n : Int) : Bool :=
  Int64.minValue.toInt ≤ n && n ≤ Int64.maxValue.toInt

def ofJson? (j : Json) : Option Value := do
  match ← j.toCase? with
  | .holding "Integer" value =>
    let n ← value.toInt?
    if inRange n then some (integer (.ofInt n)) else none
  | .holding "String" value => return string (← value.toString?)
  | _ => none

end Value

namespace Table

def toJson (t : Table) : Json :=
  .object (t.entries.map fun e => (e.1, e.2.toJson))

def entryOfJson? (member : String × Json) : Option (String × Value) := do
  return (member.1, ← Value.ofJson? member.2)

def ofJson? : Json → Option Table
  | .object members => do return ofList (← members.mapM entryOfJson?)
  | _ => none

end Table

structure File where
  version : UInt32
  overrides : Table
  deriving DecidableEq

namespace File

def currentVersion : UInt32 :=
  1

def ofTable (overrides : Table) : File :=
  ⟨currentVersion, overrides⟩

def empty : File :=
  ofTable .empty

def fieldNames : List String :=
  ["version", "overrides"]

def toJson (f : File) : Json :=
  .object (fieldNames.zip [.integer f.version.toNat, f.overrides.toJson])

def ofJson? (j : Json) : Option File := do
  match ← j.fields? fieldNames with
  | [some version, some overrides] =>
    let version ← version.toNat? (UInt32.size - 1)
    return ⟨.ofNat version, ← Table.ofJson? overrides⟩
  | _ => none

def encode (f : File) : String :=
  f.toJson.pretty

/-- What the content of a file of the current version holds. -/
def decode (content : Text.Scanned) : Except FileError File :=
  match Json.ofScanned? content >>= ofJson? with
  | none => .error .malformed
  | some f => if f.version = currentVersion then .ok f else .error (.unsupportedVersion f.version)

/-- What the content of a file holds, or nothing where that cannot be read. -/
def decodeOrEmpty (content : Text.Scanned) : File :=
  match decode content with
  | .ok f => f
  | .error _ => empty

end File

end PocketCalculator.Settings
