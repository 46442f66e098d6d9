import PocketCalculator.Session

/-!
# Frames

A session is shown as one line: its mode, and its display in a field of fixed width, in which a
shorter text stands at the right and of a longer one the end is shown.
-/

namespace PocketCalculator.Host

/-- A text in a field of so many characters. -/
def fit (text : List Char) (width : Nat) : List Char :=
  List.replicate (width - text.length) ' ' ++ text.drop (text.length - width)

def frame (s : Session) (width : Nat) : String :=
  "[" ++ s.editor.mode.name ++ "] " ++ String.ofList (fit s.display.toList width)

theorem length_fit (text : List Char) (width : Nat) : (fit text width).length = width := by
  simp only [fit, List.length_append, List.length_replicate, List.length_drop]
  omega

theorem fit_of_length_le {text : List Char} {width : Nat} (h : text.length ≤ width) :
    fit text width = List.replicate (width - text.length) ' ' ++ text := by
  simp [fit, Nat.sub_eq_zero_of_le h]

theorem fit_of_le_length {text : List Char} {width : Nat} (h : width ≤ text.length) :
    fit text width = text.drop (text.length - width) := by
  simp [fit, Nat.sub_eq_zero_of_le h]

end PocketCalculator.Host
