/-!
# Blank characters

Which characters count as blank, and the two things that are done with them everywhere: a text is
trimmed at both ends, or cut into the words that stand between blanks. The `trim` lemmas say what
happens to a blank at either end.
-/

namespace PocketCalculator.Text

/-- A character of Unicode's `White_Space` property: the ASCII controls from tab to carriage
return, the space, and the blanks of the other scripts. -/
def isBlank (c : Char) : Bool :=
  let n := c.toNat
  (0x09 ≤ n && n ≤ 0x0D) || n == 0x20 || n == 0x85 || n == 0xA0 || n == 0x1680
    || (0x2000 ≤ n && n ≤ 0x200A) || n == 0x2028 || n == 0x2029 || n == 0x202F || n == 0x205F
    || n == 0x3000

/-- The text without the blanks at its end. -/
def trimEnd (text : List Char) : List Char :=
  (text.reverse.dropWhile isBlank).reverse

/-- The text without the blanks at its two ends. -/
def trim (text : List Char) : List Char :=
  trimEnd (text.dropWhile isBlank)

/-- The words of a text that continues the unfinished `word`, whose characters are held newest
first: a blank ends the word, and so does the end of the text. -/
def wordsFrom (word : List Char) : List Char → List (List Char)
  | [] => if word.isEmpty then [] else [word.reverse]
  | c :: rest =>
    if isBlank c then
      if word.isEmpty then wordsFrom [] rest else word.reverse :: wordsFrom [] rest
    else wordsFrom (c :: word) rest

/-- The maximal blank-free pieces of a text, in order. -/
def words (text : List Char) : List (List Char) :=
  wordsFrom [] text

/-! ## Small facts -/

/-- Of the printing ASCII characters the space is the only blank. -/
theorem toNat_le_of_isBlank {c : Char} (h : isBlank c = true) (hascii : c.toNat < 0x80) :
    c.toNat ≤ 0x20 := by
  simp only [isBlank, Bool.or_eq_true, Bool.and_eq_true, decide_eq_true_eq, beq_iff_eq] at h
  omega

theorem trimEnd_append_blank {text : List Char} {c : Char} (h : isBlank c = true) :
    trimEnd (text ++ [c]) = trimEnd text := by
  simp [trimEnd, h]

theorem trimEnd_append {text : List Char} {c : Char} (h : isBlank c = false) :
    trimEnd (text ++ [c]) = text ++ [c] := by
  simp [trimEnd, h]

theorem trim_cons_blank {text : List Char} {c : Char} (h : isBlank c = true) :
    trim (c :: text) = trim text := by
  simp [trim, h]

@[simp] theorem trim_nil : trim [] = [] := rfl

end PocketCalculator.Text
