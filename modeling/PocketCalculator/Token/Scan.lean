import PocketCalculator.Text.Blank
import PocketCalculator.Token

/-!
# Reading tokens

A text is cut into tokens from left to right. Blanks are skipped; digits and points go together as
far as they reach, and so do ASCII letters; every other character stands for itself. `next?` reads
one piece and gives the rest, which is shorter (`length_lt_of_next?`), so `scan`, which reads to the
end whether or not a piece is a token, always ends. `tokens` is the list of all tokens, or the error
of the first piece that is none.
-/

namespace PocketCalculator.Token

def isNumeric (c : Char) : Bool :=
  c.isDigit || c == '.'

/-- The token of a row of digits and points. -/
def ofNumber (text : List Char) : Except EvalError Token :=
  match Decimal.ofText? text with
  | some d => .ok (.number d.toFloat)
  | none => .error (.invalidNumber (String.ofList text))

def ofName (text : List Char) : Except EvalError Token :=
  let name := String.ofList text
  if name = "sin" then .ok (.function .sin)
  else if name = "cos" then .ok (.function .cos)
  else if name = "tan" then .ok (.function .tan)
  else if name = "ln" then .ok (.function .ln)
  else if name = "log" then .ok (.function .log)
  else if name = "e" then .ok (.constant .e)
  else if name = "pi" then .ok (.constant .pi)
  else .error (.unknownIdentifier name)

def ofSymbol : Char → Except EvalError Token
  | '+' => .ok .plus
  | '-' => .ok .minus
  | '*' => .ok .star
  | '/' => .ok .slash
  | '^' => .ok .caret
  | '%' => .ok .percent
  | '(' => .ok .leftParen
  | ')' => .ok .rightParen
  | '|' => .ok .bar
  | 'π' => .ok (.constant .pi)
  | '√' => .ok (.function .sqrt)
  | c => .error (.unexpectedToken c.toString)

/-- The first piece of a text as a token or an error, and the text after it; nothing if only blanks
are left. -/
def next? : List Char → Option (Except EvalError Token × List Char)
  | [] => none
  | c :: rest =>
    if Text.isBlank c then next? rest
    else if isNumeric c then
      some (ofNumber (c :: rest.takeWhile isNumeric), rest.dropWhile isNumeric)
    else if c.isAlpha then
      some (ofName (c :: rest.takeWhile Char.isAlpha), rest.dropWhile Char.isAlpha)
    else some (ofSymbol c, rest)

theorem length_dropWhile_le {α : Type} (p : α → Bool) (xs : List α) :
    (xs.dropWhile p).length ≤ xs.length :=
  (List.dropWhile_suffix p).length_le

/-- Reading a piece uses up at least one character. -/
theorem length_lt_of_next? {text rest : List Char} {piece : Except EvalError Token}
    (h : next? text = some (piece, rest)) : rest.length < text.length := by
  induction text with
  | nil => simp [next?] at h
  | cons c text ih =>
    unfold next? at h
    split at h
    · exact Nat.lt_succ_of_lt (ih h)
    · split at h
      · simp only [Option.some.injEq, Prod.mk.injEq] at h
        rw [← h.2, List.length_cons]
        exact Nat.lt_succ_of_le (length_dropWhile_le ..)
      · split at h
        · simp only [Option.some.injEq, Prod.mk.injEq] at h
          rw [← h.2, List.length_cons]
          exact Nat.lt_succ_of_le (length_dropWhile_le ..)
        · simp only [Option.some.injEq, Prod.mk.injEq] at h
          rw [← h.2, List.length_cons]
          exact Nat.lt_succ_self _

/-- Reads on after the pieces in `done`, which are held newest first. -/
def scanFrom (done : List (Except EvalError Token)) (text : List Char) :
    List (Except EvalError Token) :=
  match _ : next? text with
  | none => done.reverse
  | some (piece, rest) => scanFrom (piece :: done) rest
termination_by text.length
decreasing_by exact length_lt_of_next? ‹_›

/-- All pieces of a text in order, each as a token or as the reason why it is none. -/
def scan (text : List Char) : List (Except EvalError Token) :=
  scanFrom [] text

/-- The tokens of a text, or what is wrong with its first piece that is no token. -/
def tokens (text : List Char) : Except EvalError (List Token) :=
  (scan text).mapM id

/-! ## Reading step by step -/

theorem scanFrom_eq (done : List (Except EvalError Token)) (text : List Char) :
    scanFrom done text = done.reverse ++ scan text := by
  induction hn : text.length using Nat.strongRecOn generalizing done text with
  | _ n ih =>
    subst hn
    unfold scan
    rw [scanFrom, scanFrom]
    split
    · simp
    · next piece rest h =>
      have hl := length_lt_of_next? h
      rw [ih _ hl _ _ rfl, ih _ hl [piece] _ rfl]
      simp

theorem scan_of_next?_none {text : List Char} (h : next? text = none) : scan text = [] := by
  rw [scan, scanFrom]
  split
  · rfl
  · next h' => simp [h] at h'

theorem scan_of_next?_some {text rest : List Char} {piece : Except EvalError Token}
    (h : next? text = some (piece, rest)) : scan text = piece :: scan rest := by
  rw [scan, scanFrom]
  split
  · next h' => simp [h] at h'
  · next h' =>
    rw [h] at h'
    cases h'
    rw [scanFrom_eq]
    rfl

end PocketCalculator.Token
