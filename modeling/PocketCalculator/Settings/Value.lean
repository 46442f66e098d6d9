/-!
# Setting values

A setting holds an integer or a text.
-/

namespace PocketCalculator.Settings

inductive Kind where
  | integer
  | string
  deriving DecidableEq, Repr

def Kind.name : Kind → String
  | integer => "integer"
  | string => "string"

inductive Value where
  | integer (value : Int64)
  | string (text : String)
  deriving DecidableEq, Repr

namespace Value

def kind : Value → Kind
  | integer _ => .integer
  | string _ => .string

def toInteger? : Value → Option Int64
  | integer value => some value
  | string _ => none

def toString? : Value → Option String
  | integer _ => none
  | string text => some text

def display : Value → String
  | integer value => toString value.toInt
  | string text => text

end Value

end PocketCalculator.Settings
