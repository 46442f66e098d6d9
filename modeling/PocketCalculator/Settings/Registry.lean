import PocketCalculator.Settings.Table

/-!
# The settings registry

A setting has a default, and may have an override of the same kind. The override counts where there
is one.
-/

namespace PocketCalculator.Settings

/-- Why a setting cannot be set or read. -/
inductive Error where
  | unknownKey (key : String)
  | kindMismatch (key : String) (expected found : Kind)
  | invalidValue (key value : String)
  deriving DecidableEq, Repr

def Error.message : Error → String
  | unknownKey key => "Unknown setting: " ++ key
  | kindMismatch key expected found =>
    "Setting " ++ key ++ " expects a " ++ expected.name ++ " value, got " ++ found.name
  | invalidValue key value => "Invalid value for " ++ key ++ ": " ++ value

structure Registry where
  defaults : Table
  overrides : Table
  deriving DecidableEq

namespace Registry

def empty : Registry :=
  ⟨.empty, .empty⟩

def register (r : Registry) (key : String) (value : Value) : Registry :=
  { r with defaults := r.defaults.insert key value }

/-- What is wrong with a value as an override, if anything is. -/
def refusal? (r : Registry) (key : String) (value : Value) : Option Error :=
  match r.defaults.get? key with
  | none => some (.unknownKey key)
  | some default =>
    if default.kind = value.kind then none
    else some (.kindMismatch key default.kind value.kind)

/-- Sets the override of a key that has a default of the same kind. -/
def set (r : Registry) (key : String) (value : Value) : Except Error Registry :=
  match r.refusal? key value with
  | some error => .error error
  | none => .ok { r with overrides := r.overrides.insert key value }

def get? (r : Registry) (key : String) : Option Value :=
  (r.overrides.get? key).or (r.defaults.get? key)

/-- Sets those of some overrides that can be set, and gives the errors of the others in order. -/
def setAll (r : Registry) : List (String × Value) → Registry × List Error
  | [] => (r, [])
  | (key, value) :: rest =>
    match r.set key value with
    | .ok r => r.setAll rest
    | .error error =>
      let (r, errors) := r.setAll rest
      (r, error :: errors)

/-- Puts other overrides in place of all overrides. Those that cannot be set are left out; their
errors are given in the order of the keys. -/
def replaceOverrides (r : Registry) (overrides : Table) : Registry × List Error :=
  { r with overrides := .empty }.setAll overrides.entries

end Registry

end PocketCalculator.Settings
