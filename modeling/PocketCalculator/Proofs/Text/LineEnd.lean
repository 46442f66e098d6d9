import PocketCalculator.Text.Blank
import PocketCalculator.Text.Lines
import PocketCalculator.Text.Lowercase
import PocketCalculator.Text.Utf8

/-!
# Line ends

A line has no line end in it (`not_mem_of_mem_lines`), and what is made of a line has none either: not the
line without blanks around it, not its words, and not their lower case. The lines of a text are the same
whether it is given as characters or as what was scanned (`scannedLines_map_some`).
-/

namespace PocketCalculator.Text

/-! ## Lines -/

theorem linesFrom_map {α β : Type} {isEnd : α → Bool} {isEnd' : β → Bool} {f : α → β}
    (h : ∀ c, isEnd' (f c) = isEnd c) (line text : List α) :
    linesFrom isEnd' (line.map f) (text.map f) = (linesFrom isEnd line text).map (List.map f) := by
  induction text generalizing line with
  | nil =>
    simp only [List.map_nil, linesFrom, List.isEmpty_map]
    split
    · rfl
    · rw [List.map_cons, List.map_reverse, List.map_nil]
  | cons c text ih =>
    simp only [List.map_cons, linesFrom, h]
    split
    · rw [List.map_cons, List.map_reverse, ← ih [], List.map_nil]
    · exact ih (c :: line)

/-- The lines of a text, as they are scanned. -/
theorem scannedLines_map_some (text : List Char) :
    scannedLines (text.map some) = (lines text).map (List.map some) := by
  refine linesFrom_map ?_ [] text
  intro c
  exact Bool.eq_iff_iff.mpr (by simp)

theorem toText?_map_some (text : List Char) : Scanned.toText? (text.map some) = some text := by
  unfold Scanned.toText?
  induction text with
  | nil => rfl
  | cons c text ih =>
    rw [List.map_cons, List.mapM_cons, ih]
    rfl

theorem not_mem_linesFrom {line text : List Char} (hline : '\n' ∉ line) :
    ∀ l ∈ linesFrom (· == '\n') line text, '\n' ∉ l := by
  induction text generalizing line with
  | nil =>
    unfold linesFrom
    split
    · exact fun l hl => absurd hl List.not_mem_nil
    · intro l hl
      rw [List.mem_singleton.mp hl, List.mem_reverse]
      exact hline
  | cons c text ih =>
    unfold linesFrom
    split
    · intro l hl
      rcases List.mem_cons.mp hl with rfl | hl
      · rwa [List.mem_reverse]
      · exact ih List.not_mem_nil l hl
    · next hc =>
      refine ih ?_
      intro hmem
      rcases List.mem_cons.mp hmem with rfl | hmem
      · exact hc rfl
      · exact hline hmem

theorem not_mem_of_mem_lines {text line : List Char} (h : line ∈ lines text) : '\n' ∉ line :=
  not_mem_linesFrom List.not_mem_nil line h

/-! ## Blanks and words -/

theorem mem_of_mem_trim {text : List Char} {c : Char} (h : c ∈ trim text) : c ∈ text := by
  unfold trim trimEnd at h
  have hstart := (List.dropWhile_sublist isBlank).mem (List.mem_reverse.mp h)
  exact (List.dropWhile_sublist isBlank).mem (List.mem_reverse.mp hstart)

theorem trim_append_blank {text : List Char} {c : Char} (h : isBlank c = true) :
    trim (text ++ [c]) = trim text := by
  unfold trim
  rw [List.dropWhile_append]
  split
  · next hblank =>
    rw [List.isEmpty_iff.mp hblank, List.dropWhile_cons_of_pos h]
    rfl
  · exact trimEnd_append_blank h

theorem mem_of_mem_wordsFrom {word text w : List Char} {c : Char} (hw : w ∈ wordsFrom word text)
    (hc : c ∈ w) : c ∈ word ∨ c ∈ text := by
  induction text generalizing word with
  | nil =>
    unfold wordsFrom at hw
    split at hw
    · cases hw
    · rw [List.mem_singleton.mp hw, List.mem_reverse] at hc
      exact .inl hc
  | cons d text ih =>
    unfold wordsFrom at hw
    split at hw
    · split at hw
      · exact .inr (List.mem_cons_of_mem d ((ih hw).resolve_left List.not_mem_nil))
      · rcases List.mem_cons.mp hw with rfl | hw
        · exact .inl (List.mem_reverse.mp hc)
        · exact .inr (List.mem_cons_of_mem d ((ih hw).resolve_left List.not_mem_nil))
    · rcases ih hw with hword | htext
      · rcases List.mem_cons.mp hword with rfl | hword
        · exact .inr List.mem_cons_self
        · exact .inl hword
      · exact .inr (List.mem_cons_of_mem d htext)

theorem mem_of_mem_words {text w : List Char} {c : Char} (hw : w ∈ words text) (hc : c ∈ w) :
    c ∈ text :=
  (mem_of_mem_wordsFrom hw hc).resolve_left List.not_mem_nil

/-! ## Lower case -/

/-- The table has no letter whose lower case would be a control character. -/
theorem lt_of_mem_caseRuns {run : CaseRun} (h : run ∈ caseRuns) :
    '\n'.toNat < (run.first + run.shift).toNat := by
  have hall : ∀ run ∈ caseRuns, '\n'.toNat < (run.first + run.shift).toNat := by decide +kernel
  exact hall run h

theorem ofNat_ne_of_lt {n : Nat} (h : '\n'.toNat < n) : Char.ofNat n ≠ '\n' := by
  intro heq
  by_cases hvalid : n.isValidChar
  · have hcode : (Char.ofNat n).toNat = n := congrArg Char.toNat (dif_pos hvalid)
    rw [← hcode, heq] at h
    exact Nat.lt_irrefl _ h
  · rw [show Char.ofNat n = '\x00' from dif_neg hvalid] at heq
    cases heq

theorem simpleLowercase_ne {c : Char} (h : c ≠ '\n') : simpleLowercase c ≠ '\n' := by
  unfold simpleLowercase
  split
  · next run hrun =>
    have hmem := lt_of_mem_caseRuns (List.mem_of_find?_eq_some hrun)
    have hholds := List.find?_some hrun
    unfold CaseRun.holds at hholds
    rw [Bool.and_eq_true, Bool.and_eq_true, decide_eq_true_eq] at hholds
    refine ofNat_ne_of_lt ?_
    omega
  · exact h

theorem toLower_ne {c : Char} (h : c ≠ '\n') : c.toLower ≠ '\n' := by
  intro heq
  unfold Char.toLower at heq
  split at heq
  · next hcapital =>
    have hlow : 65 ≤ c.val.toNat := hcapital.1
    have hhigh : c.val.toNat ≤ 90 := hcapital.2
    have hvalue : (c.val.toNat + 32) % 2 ^ 32 = 10 := congrArg (·.val.toNat) heq
    omega
  · exact h heq

theorem not_mem_lowercaseAt {before after : List Char} {c : Char} (h : c ≠ '\n') :
    '\n' ∉ lowercaseAt before after c := by
  unfold lowercaseAt
  split
  · exact fun hmem => toLower_ne h (List.mem_singleton.mp hmem).symm
  · split
    · decide
    · split
      · split <;> decide
      · exact fun hmem => simpleLowercase_ne h (List.mem_singleton.mp hmem).symm

theorem not_mem_lowercaseFrom {before text : List Char} (h : '\n' ∉ text) :
    '\n' ∉ lowercaseFrom before text := by
  induction text generalizing before with
  | nil => exact h
  | cons c text ih =>
    have hc : c ≠ '\n' := (List.ne_of_not_mem_cons h).symm
    have htext : '\n' ∉ text := List.not_mem_of_not_mem_cons h
    unfold lowercaseFrom
    rw [List.mem_append]
    rintro (hhead | htail)
    · exact not_mem_lowercaseAt hc hhead
    · exact ih htext htail

theorem not_mem_lowercase {text : List Char} (h : '\n' ∉ text) : '\n' ∉ lowercase text :=
  not_mem_lowercaseFrom h

end PocketCalculator.Text
