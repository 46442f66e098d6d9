/-!
# JSON values

The values that settings and snapshots are written as. Two constructors stand for values of which
only the presence matters, because nothing is read from them: a number that is not written as an
integer, and a string or a key that holds no text.
-/

namespace PocketCalculator

inductive Json where
  | null
  | bool (value : Bool)
  | integer (value : Int)
  /-- A number with a fraction or an exponent, or negative zero. -/
  | real
  | string (text : String)
  /-- A string with a lone surrogate or with octets that are no characters, or an object with such
  a key. -/
  | garbled
  | array (items : List Json)
  | object (members : List (String × Json))

namespace Json

/-! ## Taking values apart -/

def toInt? : Json → Option Int
  | integer value => some value
  | _ => none

/-- An integer that is not negative and at most `limit`. -/
def toNat? (limit : Nat) : Json → Option Nat
  | integer (.ofNat n) => if n ≤ limit then some n else none
  | _ => none

def toBool? : Json → Option Bool
  | bool value => some value
  | _ => none

def toString? : Json → Option String
  | string text => some text
  | _ => none

/-- A name alone, or a name with a value: the two ways of writing one case out of several. -/
inductive Case where
  | alone (name : String)
  | holding (name : String) (value : Json)

/-- A case is a string, or an object with a single member. A name that holds `null` holds
nothing. -/
def toCase? : Json → Option Case
  | string name => some (.alone name)
  | object [(name, null)] => some (.alone name)
  | object [(name, value)] => some (.holding name value)
  | _ => none

/-- The value under a name: none if there is none, and a failure if there are several. -/
def lookup? (members : List (String × Json)) (name : String) : Option (Option Json) :=
  match members.filter (·.1 = name) with
  | [] => some none
  | [member] => some (some member.2)
  | _ => none

/-- The values of named fields. They are the members of an object, in which further members are
passed over, or the items of an array, which must be as many. -/
def fields? (names : List String) : Json → Option (List (Option Json))
  | object members => names.mapM (lookup? members)
  | array items => if items.length = names.length then some (items.map some) else none
  | _ => none

end Json

end PocketCalculator
