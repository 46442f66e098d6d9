import PocketCalculator.Glyph
import PocketCalculator.Keypad.FunctionKey
import PocketCalculator.MathFunction
import PocketCalculator.Text.Blank

/-!
# Events

An event is one press that edits the entry. Evaluation is not an event, since it is asked of the
entry as it stands; an `Action` is either of the two. `Action.ofLabel?` says what a key asks for by
the label on it.
-/

namespace PocketCalculator

inductive CursorMove where
  | left
  | right
  | home
  | toEnd
  deriving DecidableEq, Repr

inductive Event where
  /-- A digit, or the symbol of a constant. -/
  | digit (c : Char)
  /-- An operator in any of its glyphs. -/
  | operator (c : Char)
  | point
  | percent
  | clear
  | backspace
  /-- Deletes the characters of a range. -/
  | delete (start stop : Nat)
  | signToggle
  /-- Opens a bracket, or closes the one that it opened before. -/
  | bracket
  | function (key : FunctionKey)
  | modeToggle
  | move (direction : CursorMove)
  deriving DecidableEq, Repr

inductive Action where
  | edit (event : Event)
  | evaluate
  deriving DecidableEq, Repr

namespace Action

/-- What a single character on a key asks for. -/
def ofChar? (c : Char) : Option Action :=
  if c.isDigit || (Constant.ofSymbol? c).isSome then some (edit (.digit c))
  else if Glyph.isOperator c then some (edit (.operator c))
  else none

/-- What a key asks for by its label, blanks around it aside. -/
def ofLabel? (label : String) : Option Action :=
  let label := Text.trim label.toList
  match String.ofList label with
  | "=" => some evaluate
  | "C" => some (edit .clear)
  | "()" => some (edit .bracket)
  | "%" => some (edit .percent)
  | "." => some (edit .point)
  | "+/−" | "+/-" | "±" => some (edit .signToggle)
  | "⌫" => some (edit .backspace)
  | name =>
    match FunctionKey.ofLabel? name with
    | some key => some (edit (.function key))
    | none =>
      match Glyph.canonicalLabel label with
      | [c] => ofChar? c
      | _ => none

end Action

end PocketCalculator
