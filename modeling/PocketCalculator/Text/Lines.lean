/-!
# Lines

A text is cut at its line ends. What stands after the last of them is a line if there is anything.
The members of a text may be characters or what is scanned as such.
-/

namespace PocketCalculator.Text

/-- The lines of a text that continues the unfinished `line`, which is held newest member first. -/
def linesFrom {α : Type} (isEnd : α → Bool) (line : List α) : List α → List (List α)
  | [] => if line.isEmpty then [] else [line.reverse]
  | c :: rest =>
    if isEnd c then line.reverse :: linesFrom isEnd [] rest else linesFrom isEnd (c :: line) rest

def lines (text : List Char) : List (List Char) :=
  linesFrom (· == '\n') [] text

/-- The lines of a text of which parts may be no characters. -/
def scannedLines (text : List (Option Char)) : List (List (Option Char)) :=
  linesFrom (· == some '\n') [] text

end PocketCalculator.Text
