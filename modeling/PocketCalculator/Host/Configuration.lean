import PocketCalculator.Host.Machine

/-!
# Configuration

The preferences of a host come from the defaults, over which the settings file goes and over that
the flags. Entries of the file that cannot be set are logged and left out; a value that is set but
has no meaning is an error.
-/

namespace PocketCalculator.Host

/-- What is found where a file should be. -/
abbrev Content :=
  Except Settings.IoError Text.Scanned

/-- The overrides in a settings file. There are none without a file. -/
def readOverrides : Option Content → Except Settings.FileError Settings.Table
  | none | some (.error .notFound) => .ok .empty
  | some (.error cause) => .error (.io cause)
  | some (.ok content) => (Settings.File.decode content).map (·.overrides)

def modeOverride (mode : Mode) : Settings.Value :=
  .string (String.ofList (mode.name.toList.map Char.toLower))

/-- The override that a width flag is. A width that is no integer of settings is the greatest of
them. -/
def widthOverride (width : Nat) : Settings.Value :=
  .integer (.ofNat (min width Int64.maxValue.toInt.toNat))

/-- The registry with an override from a flag, if the flag is given. -/
def setFlag (r : Settings.Registry) (key : String) :
    Option Settings.Value → Except Settings.Error Settings.Registry
  | none => .ok r
  | some value => r.set key value

/-- The preferences of a registry with the flags over it. -/
def resolve (r : Settings.Registry) (mode : Option Mode) (width : Option Nat) :
    Except Settings.Error Settings.Preferences := do
  let r ← setFlag r Settings.startModeKey (mode.map modeOverride)
  let r ← setFlag r Settings.displayWidthKey (width.map widthOverride)
  r.preferences

/-- The preferences from a settings file and flags, and what is logged on the way. -/
def configure (file : Option Content) (mode : Option Mode) (width : Option Nat) :
    Except Error Settings.Preferences × List LogEntry :=
  match readOverrides file with
  | .error cause => (.error (.file cause), [])
  | .ok overrides =>
    let (r, errors) := Settings.Registry.calculator.replaceOverrides overrides
    ((resolve r mode width).mapError .settings, errors.map .ignoredSetting)

end PocketCalculator.Host
