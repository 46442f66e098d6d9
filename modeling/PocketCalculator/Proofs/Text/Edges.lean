import Mathlib
import PocketCalculator.Proofs.Text.LineEnd

/-!
# What stands at the ends of a text

A text stays as it is when it is trimmed if neither of its ends is blank (`trim_eq_self_iff`), and what is
put around it is taken off again if it is blank (`trim_between`). A row without a line end is a line
(`lines_cons`). Neither the words of a text nor its ends depend on the case of ASCII letters
(`words_map`, `isBlank_toLower`), and a character that is no letter is kept in lower case
(`mem_lowercase`).
-/

namespace PocketCalculator.Text

variable {text line before after : List Char} {c : Char}

/-! ## Lines -/

theorem linesFrom_append (held : List Char) (h : '\n' ∉ line) (text : List Char) :
    linesFrom (· == '\n') held (line ++ text) = linesFrom (· == '\n') (line.reverse ++ held) text := by
  induction line generalizing held with
  | nil => rfl
  | cons c line ih =>
    have hc : ¬(c == '\n') = true := fun heq => h (by simp [eq_of_beq heq])
    rw [List.cons_append, linesFrom, if_neg hc, ih _ (List.not_mem_of_not_mem_cons h),
      List.reverse_cons, List.append_assoc, List.singleton_append]

/-- A row up to a line end is the first line. -/
theorem lines_cons (h : '\n' ∉ line) (text : List Char) :
    lines (line ++ '\n' :: text) = line :: lines text := by
  unfold lines
  rw [linesFrom_append [] h, linesFrom, if_pos (beq_self_eq_true '\n'), List.append_nil,
    List.reverse_reverse]

/-- A row without a line end is the only line, and no line if it is empty. -/
theorem lines_of_not_mem (h : '\n' ∉ line) : lines line = if line.isEmpty then [] else [line] := by
  have hlines := linesFrom_append [] h []
  rw [List.append_nil, List.append_nil, linesFrom, List.isEmpty_reverse,
    List.reverse_reverse] at hlines
  exact hlines

/-! ## Trimmed texts -/

theorem trim_append_left (hbefore : ∀ c ∈ before, isBlank c = true) (text : List Char) :
    trim (before ++ text) = trim text := by
  induction before with
  | nil => rfl
  | cons c before ih =>
    rw [List.cons_append, trim_cons_blank (hbefore c List.mem_cons_self)]
    exact ih fun d hd => hbefore d (List.mem_cons_of_mem c hd)

theorem trim_between (hbefore : ∀ c ∈ before, isBlank c = true) (hafter : ∀ c ∈ after, isBlank c = true)
    (text : List Char) : trim (before ++ text ++ after) = trim text := by
  induction after using List.reverseRecOn with
  | nil => rw [List.append_nil, trim_append_left hbefore]
  | append_singleton after c ih =>
    rw [← List.append_assoc, trim_append_blank (hafter c (by simp))]
    exact ih fun d hd => hafter d (List.mem_append_left [c] hd)

theorem trim_of_blank (h : ∀ c ∈ text, isBlank c = true) : trim text = [] := by
  have htrim := trim_append_left h []
  rwa [List.append_nil, trim_nil] at htrim

theorem length_trim_le (text : List Char) : (trim text).length ≤ text.length := by
  unfold trim trimEnd
  rw [List.length_reverse]
  calc (List.dropWhile isBlank (text.dropWhile isBlank).reverse).length
      ≤ (text.dropWhile isBlank).reverse.length := (List.dropWhile_sublist isBlank).length_le
    _ = (text.dropWhile isBlank).length := List.length_reverse
    _ ≤ text.length := (List.dropWhile_sublist isBlank).length_le

/-- **What trimming keeps**: the texts that neither begin nor end with a blank. -/
theorem trim_eq_self_iff :
    trim text = text ↔
      (∀ c, text.head? = some c → isBlank c = false) ∧ ∀ c, text.getLast? = some c → isBlank c = false := by
  constructor
  · intro htrim
    constructor
    · intro c hhead
      by_contra hblank
      obtain ⟨rest, rfl⟩ := List.head?_eq_some_iff.mp hhead
      rw [trim_cons_blank (eq_true_of_ne_false hblank)] at htrim
      have hlength := length_trim_le rest
      rw [htrim, List.length_cons] at hlength
      exact Nat.not_succ_le_self _ hlength
    · intro c hlast
      by_contra hblank
      obtain ⟨rest, rfl⟩ := List.getLast?_eq_some_iff.mp hlast
      rw [trim_append_blank (eq_true_of_ne_false hblank)] at htrim
      have hlength := length_trim_le rest
      rw [htrim, List.length_append] at hlength
      exact Nat.not_succ_le_self _ hlength
  · rintro ⟨hhead, hlast⟩
    have hstart : text.dropWhile isBlank = text := by
      cases text with
      | nil => rfl
      | cons c rest => exact List.dropWhile_cons_of_neg (by simp [hhead c rfl])
    rcases List.eq_nil_or_concat' text with rfl | ⟨rest, c, rfl⟩
    · rfl
    · rw [trim, hstart]
      exact trimEnd_append (hlast c List.getLast?_concat)

theorem trim_cons (h : isBlank c = false) (text : List Char) : trim (c :: text) = c :: trimEnd text := by
  have hc : ¬isBlank c = true := ne_true_of_eq_false h
  rw [trim, List.dropWhile_cons_of_neg hc, trimEnd, trimEnd, List.reverse_cons, List.dropWhile_append]
  split
  · next hempty =>
    rw [List.isEmpty_iff.mp hempty, List.dropWhile_cons_of_neg hc]
    rfl
  · exact List.reverse_concat

/-! ## Letter case -/

theorem isUpper_iff : c.isUpper = true ↔ 65 ≤ c.toNat ∧ c.toNat ≤ 90 := by
  simp [Char.isUpper, UInt32.le_iff_toNat_le]

theorem toNat_toLower_of_isUpper (h : c.isUpper = true) : c.toLower.toNat = c.toNat + 32 := by
  have hrange := isUpper_iff.mp h
  rw [Char.toLower_eq_of_isUpper h, Char.toNat_ofNat, if_pos (by unfold Nat.isValidChar; omega)]

@[simp] theorem isBlank_toLower (c : Char) : isBlank c.toLower = isBlank c := by
  by_cases h : c.isUpper = true
  · have hrange := isUpper_iff.mp h
    have hcode := toNat_toLower_of_isUpper h
    have hnot : ∀ d : Char, 65 ≤ d.toNat → d.toNat ≤ 122 → isBlank d = false := by
      intro d hlow hhigh
      by_contra hblank
      have := toNat_le_of_isBlank (eq_true_of_ne_false hblank) (by omega)
      omega
    rw [hnot c (by omega) (by omega), hnot c.toLower (by omega) (by omega)]
  · rw [Char.toLower_eq_of_not_isUpper h]

theorem toNat_toLower_lt_iff : c.toLower.toNat < 0x80 ↔ c.toNat < 0x80 := by
  by_cases h : c.isUpper = true
  · have hrange := isUpper_iff.mp h
    rw [toNat_toLower_of_isUpper h]
    omega
  · rw [Char.toLower_eq_of_not_isUpper h]

theorem toLower_comp_toLower : Char.toLower ∘ Char.toLower = Char.toLower :=
  funext Char.toLower_toLower_eq_toLower

section Mapped

variable {f : Char → Char} (hf : ∀ c, isBlank (f c) = isBlank c)
include hf

theorem trim_map (text : List Char) : trim (text.map f) = (trim text).map f := by
  have hblank : isBlank ∘ f = isBlank := funext hf
  unfold trim trimEnd
  rw [List.dropWhile_map, hblank, ← List.map_reverse, List.dropWhile_map, hblank, ← List.map_reverse]

theorem trim_map_eq_self_iff : trim (text.map f) = text.map f ↔ trim text = text := by
  simp [trim_eq_self_iff, List.head?_map, List.getLast?_map, hf]

theorem wordsFrom_map (word text : List Char) :
    wordsFrom (word.map f) (text.map f) = (wordsFrom word text).map (List.map f) := by
  induction text generalizing word with
  | nil =>
    rw [List.map_nil, wordsFrom, wordsFrom, List.isEmpty_map]
    split
    · rfl
    · rw [List.map_cons, List.map_reverse, List.map_nil]
  | cons c rest ih =>
    rw [List.map_cons, wordsFrom, wordsFrom, hf, List.isEmpty_map]
    split
    · split
      · exact ih []
      · rw [List.map_cons, List.map_reverse, ← ih [], List.map_nil]
    · exact ih (c :: word)

/-- The words of a text are where its blanks leave them. -/
theorem words_map (text : List Char) : words (text.map f) = (words text).map (List.map f) :=
  wordsFrom_map hf [] text

end Mapped

/-! ## Lower case -/

/-- The table of letters leaves the blanks out. -/
theorem not_holds_of_isBlank {run : CaseRun} (hrun : run ∈ caseRuns) (h : isBlank c = true) :
    run.holds c.toNat = false := by
  have hall : ∀ run ∈ caseRuns, ∀ bounds ∈ [(0x09, 0x0D), (0x20, 0x20), (0x85, 0x85), (0xA0, 0xA0),
      (0x1680, 0x1680), (0x2000, 0x200A), (0x2028, 0x2029), (0x202F, 0x202F), (0x205F, 0x205F),
      (0x3000, 0x3000)], run.last < bounds.1 ∨ bounds.2 < run.first := by decide +kernel
  have hbounds := hall run hrun
  simp only [List.forall_mem_cons, List.not_mem_nil, false_imp_iff, implies_true, and_true] at hbounds
  simp only [isBlank, Bool.or_eq_true, Bool.and_eq_true, decide_eq_true_eq, beq_iff_eq] at h
  by_contra hholds
  simp only [CaseRun.holds, Bool.not_eq_false, Bool.and_eq_true, decide_eq_true_eq] at hholds
  omega

/-- What has no lower case of its own, in ASCII and among the blanks. -/
theorem lowercaseAt_eq (before after : List Char)
    (h : isBlank c = true ∨ c.toNat < 0x80 ∧ c.toLower = c) : lowercaseAt before after c = [c] := by
  unfold lowercaseAt
  rcases h with hblank | ⟨hascii, hlower⟩
  · split
    · next hascii =>
      have hcode := toNat_le_of_isBlank hblank hascii
      have hupper : ¬c.isUpper = true := fun h => by
        have := (isUpper_iff.mp h).1
        omega
      rw [Char.toLower_eq_of_not_isUpper hupper]
    · split
      · next hdotted =>
        subst hdotted
        exact absurd hblank (by decide)
      · split
        · next hsigma =>
          subst hsigma
          exact absurd hblank (by decide)
        · rw [simpleLowercase, List.find?_eq_none.mpr fun run hrun => by
            rw [not_holds_of_isBlank hrun hblank]
            exact Bool.false_ne_true]
  · rw [if_pos hascii, hlower]

/-- Blanks and the marks of ASCII are still there in the lower case of a text. -/
theorem mem_lowercaseFrom (held : List Char) (hmem : c ∈ text)
    (h : isBlank c = true ∨ c.toNat < 0x80 ∧ c.toLower = c) : c ∈ lowercaseFrom held text := by
  induction text generalizing held with
  | nil => exact absurd hmem List.not_mem_nil
  | cons d rest ih =>
    rw [lowercaseFrom, List.mem_append]
    rcases List.mem_cons.mp hmem with rfl | hmem
    · rw [lowercaseAt_eq held rest h]
      exact .inl List.mem_cons_self
    · exact .inr (ih (d :: held) hmem)

theorem mem_lowercase (hmem : c ∈ text) (h : isBlank c = true ∨ c.toNat < 0x80 ∧ c.toLower = c) :
    c ∈ lowercase text :=
  mem_lowercaseFrom [] hmem h

theorem lowercase_map_toLower (h : ∀ c ∈ text, c.toNat < 0x80) :
    lowercase (text.map Char.toLower) = lowercase text := by
  have hlower : ∀ c ∈ text.map Char.toLower, c.toNat < 0x80 := by
    intro c hc
    obtain ⟨d, hd, rfl⟩ := List.mem_map.mp hc
    exact toNat_toLower_lt_iff.mpr (h d hd)
  rw [lowercase_ascii h, lowercase_ascii hlower, List.map_map, toLower_comp_toLower]

/-- One character has two in its lower case at the most. -/
theorem length_lowercaseAt_le (before after : List Char) (c : Char) :
    (lowercaseAt before after c).length ≤ 2 := by
  unfold lowercaseAt
  split
  · exact Nat.le_succ 1
  · split
    · exact Nat.le_refl 2
    · split <;> exact Nat.le_succ 1

end PocketCalculator.Text
