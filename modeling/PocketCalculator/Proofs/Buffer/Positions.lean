import PocketCalculator.Buffer
import PocketCalculator.Decimal
import PocketCalculator.Proofs.Text.Run
import PocketCalculator.Text.Cut

/-!
# Positions in an entry

The computations of an entry step by step, as a loop over positions makes them, where reading outside
the text, a difference below zero, and a range that does not lie in the text or cuts a character are
failures (`Checked`). None of them ever fails, and each gives what the definitions on whole lists
say: `Checked.back_eq` and `Checked.on_eq` for the two directions of a run, `Checked.splice_eq` for
changes, and from them the rest.
-/

namespace PocketCalculator

namespace Buffer

open Text (IsRun runBack runBack_append runBack_eq_nil)

/-! ## The run around a position -/

theorem exists_run_around (b : Buffer) (p : Char → Bool) (pos : Nat) :
    ∃ before left right after, b.chars.take pos = before ++ left ∧
      b.chars.drop pos = right ++ after ∧ IsRun p before (left ++ right) after := by
  obtain ⟨before, hleft, hrun⟩ := Text.isRun_around p (b.chars.take pos) (b.chars.drop pos)
  exact ⟨before, _, _, _, hleft, List.takeWhile_append_dropWhile.symm, hrun⟩

section Run

variable {b : Buffer} {p : Char → Bool} {pos : Nat} {before left right after : List Char}
  (hleft : b.chars.take pos = before ++ left) (hright : b.chars.drop pos = right ++ after)
  (hrun : IsRun p before (left ++ right) after)

include hleft hright hrun

/-- What is before the position, the last first, and what is after it. -/
theorem run_parts : b.runBefore p pos = left.reverse ∧ b.runAfter p pos = right := by
  obtain ⟨hallLeft, hallRight⟩ := List.forall_mem_append.mp hrun.all
  constructor
  · rw [runBefore, hleft]
    refine (runBack_append hallLeft).trans ?_
    rw [runBack_eq_nil hrun.before, List.append_nil]
  · rw [runAfter, hright]
    exact (takeWhile_row hallRight hrun.after).1

/-- Where the run starts and stops, also if the position had to be clamped. -/
theorem run_around : b.runStart p pos = before.length ∧
    b.runStop p pos = before.length + (left ++ right).length ∧
    b.chars = before ++ (left ++ right) ++ after := by
  obtain ⟨hbefore, hafter⟩ := run_parts hleft hright hrun
  have hpos : min pos b.length = before.length + left.length := by
    rw [length, ← List.length_take, hleft, List.length_append]
  refine ⟨?_, ?_, ?_⟩
  · rw [runStart, hbefore, hpos, List.length_reverse, Nat.add_sub_cancel]
  · rw [runStop, hafter, hpos, List.length_append, Nat.add_assoc]
  · rw [← List.take_append_drop pos b.chars, hleft, hright]
    simp only [List.append_assoc]

end Run

end Buffer

namespace Checked

open Text (runBack)

/-! ## Numbers, characters and ranges -/

/-- A difference that is not below zero. -/
def sub (a b : Nat) : Option Nat :=
  if b ≤ a then some (a - b) else none

theorem sub_eq {a b : Nat} (h : b ≤ a) : sub a b = some (a - b) :=
  if_pos h

def slice (chars : List Char) (start stop : Nat) : Option (List Char) :=
  if start ≤ stop ∧ stop ≤ chars.length then some ((chars.take stop).drop start) else none

/-- Whether a place, counted in octets, lies between two characters of the text. -/
def isBoundary : Nat → List Char → Bool
  | 0, _ => true
  | _ + 1, [] => false
  | place + 1, c :: rest =>
    decide (c.utf8Size ≤ place + 1) && isBoundary (place + 1 - c.utf8Size) rest

/-- Puts a text in the place of a range that is given in octets and cuts no character. -/
def replaceRange (chars : List Char) (start stop : Nat) (text : List Char) : Option (List Char) :=
  if start ≤ stop ∧ isBoundary start chars = true ∧ isBoundary stop chars = true then
    some (Text.before start chars ++ text ++ Text.fromPlace stop chars)
  else none

def splice (b : Buffer) (start stop : Nat) (text : List Char) : Option (Buffer × Nat) := do
  let stop := min stop b.length
  let start := min start stop
  let chars ← replaceRange b.chars (Text.octets (b.chars.take start))
    (Text.octets (b.chars.take stop)) text
  some (.ofChars chars, if chars = [] then Buffer.zero.length else start + text.length)

theorem isBoundary_octets (a b : List Char) : isBoundary (Text.octets a) (a ++ b) = true := by
  induction a with
  | nil => rw [Text.octets_nil, isBoundary]
  | cons c a ih =>
    obtain ⟨n, hn⟩ := Nat.exists_eq_succ_of_ne_zero (Nat.pos_iff_ne_zero.mp c.utf8Size_pos)
    have hrest : c.utf8Size + Text.octets a - c.utf8Size = Text.octets a := by omega
    rw [Text.octets_cons, hn, Nat.succ_add, List.cons_append, isBoundary, ← Nat.succ_eq_add_one,
      ← Nat.succ_add, ← hn, hrest, ih, Bool.and_true, decide_eq_true_eq]
    exact Nat.le_add_right ..

theorem octets_take_mono (chars : List Char) {m n : Nat} (h : m ≤ n) :
    Text.octets (chars.take m) ≤ Text.octets (chars.take n) := by
  induction chars generalizing m n with
  | nil => simp
  | cons c chars ih =>
    cases m with
    | zero => exact Nat.zero_le _
    | succ m =>
      cases n with
      | zero => exact absurd h (Nat.not_succ_le_zero m)
      | succ n => exact Nat.add_le_add_left (ih (Nat.le_of_succ_le_succ h)) _

/-- Places that are counted in characters and handed on in octets cut no character. -/
theorem replaceRange_eq (chars text : List Char) {start stop : Nat} (h : start ≤ stop) :
    replaceRange chars (Text.octets (chars.take start)) (Text.octets (chars.take stop)) text =
      some (chars.take start ++ text ++ chars.drop stop) := by
  have hboundary : ∀ pos, isBoundary (Text.octets (chars.take pos)) chars = true := by
    intro pos
    have h := isBoundary_octets (chars.take pos) (chars.drop pos)
    rwa [List.take_append_drop] at h
  have hbefore := Text.before_octets_append (chars.take start) (chars.drop start)
  have hafter := Text.fromPlace_octets_append (chars.take stop) (chars.drop stop)
  rw [List.take_append_drop] at hbefore hafter
  rw [replaceRange, if_pos ⟨octets_take_mono chars h, hboundary start, hboundary stop⟩, hbefore,
    hafter]

theorem splice_eq (b : Buffer) (start stop : Nat) (text : List Char) :
    splice b start stop text = some (b.splice start stop text) := by
  have hrange : min start (min stop b.length) ≤ min stop b.length := Nat.min_le_right ..
  rw [splice, replaceRange_eq b.chars text hrange]
  rfl

/-! ## Runs -/

/-- Goes back from a position as long as the character before it has `p`. -/
def back (p : Char → Bool) (chars : List Char) : Nat → Option Nat
  | 0 => some 0
  | pos + 1 => do
    let c ← chars[pos]?
    if p c then back p chars pos else some (pos + 1)

/-- Goes on from a position as long as the character there has `p`. -/
def on (p : Char → Bool) (chars : List Char) (pos : Nat) : Option Nat :=
  if pos < chars.length then do
    let c ← chars[pos]?
    if p c then on p chars (pos + 1) else some pos
  else some pos
termination_by chars.length - pos

theorem runBack_take_succ {p : Char → Bool} {chars : List Char} {pos : Nat}
    (h : pos < chars.length) :
    runBack p (chars.take (pos + 1)) =
      if p chars[pos] then chars[pos] :: runBack p (chars.take pos) else [] := by
  rw [List.take_succ_eq_append_getElem h, Text.runBack_concat]

theorem back_eq (p : Char → Bool) (chars : List Char) {pos : Nat} (h : pos ≤ chars.length) :
    back p chars pos = some (pos - (runBack p (chars.take pos)).length) := by
  induction pos with
  | zero => rfl
  | succ pos ih =>
    rw [back, List.getElem?_eq_getElem h, runBack_take_succ h, Option.bind_eq_bind,
      Option.bind_some]
    split
    · rw [ih (Nat.le_of_lt h), List.length_cons, Nat.add_sub_add_right]
    · rfl

theorem on_eq (p : Char → Bool) (chars : List Char) {pos : Nat} (h : pos ≤ chars.length) :
    on p chars pos = some (pos + ((chars.drop pos).takeWhile p).length) := by
  induction hn : chars.length - pos generalizing pos with
  | zero =>
    have hpos : chars.length ≤ pos := by omega
    rw [on, if_neg (Nat.not_lt_of_le hpos), List.drop_of_length_le hpos]
    rfl
  | succ n ih =>
    have hlt : pos < chars.length := by omega
    rw [on, if_pos hlt, List.getElem?_eq_getElem hlt, List.drop_eq_getElem_cons hlt,
      List.takeWhile_cons, Option.bind_eq_bind, Option.bind_some]
    split
    · have hrest := ih (show pos + 1 ≤ chars.length from hlt) (by omega)
      rw [hrest, List.length_cons, Nat.add_right_comm]
      rfl
    · rfl

/-! ## Operators and operands -/

def operatorsStart (b : Buffer) (pos : Nat) : Option Nat :=
  back Glyph.isOperator b.chars (min pos b.length)

def operatorsStop (b : Buffer) (pos : Nat) : Option Nat :=
  on Glyph.isOperator b.chars (min pos b.length)

def segmentPoints (b : Buffer) (pos : Nat) : Option Nat := do
  let start ← back Buffer.isSegmentChar b.chars (min pos b.length)
  let stop ← on Buffer.isSegmentChar b.chars (min pos b.length)
  let operand ← slice b.chars start stop
  some (operand.count '.')

theorem take_min_length (b : Buffer) (pos : Nat) :
    b.chars.take (min pos b.length) = b.chars.take pos := by
  rcases Nat.le_total pos b.length with h | h
  · rw [Nat.min_eq_left h]
  · rw [Nat.min_eq_right h, List.take_of_length_le h]
    exact List.take_of_length_le (Nat.le_refl _)

theorem drop_min_length (b : Buffer) (pos : Nat) :
    b.chars.drop (min pos b.length) = b.chars.drop pos := by
  rcases Nat.le_total pos b.length with h | h
  · rw [Nat.min_eq_left h]
  · rw [Nat.min_eq_right h, List.drop_of_length_le h]
    exact List.drop_of_length_le (Nat.le_refl _)

theorem runStart_eq (b : Buffer) (p : Char → Bool) (pos : Nat) :
    back p b.chars (min pos b.length) = some (b.runStart p pos) := by
  have hpos : min pos b.length ≤ b.chars.length := Nat.min_le_right ..
  rw [back_eq p b.chars hpos, take_min_length]
  rfl

theorem runStop_eq (b : Buffer) (p : Char → Bool) (pos : Nat) :
    on p b.chars (min pos b.length) = some (b.runStop p pos) := by
  have hpos : min pos b.length ≤ b.chars.length := Nat.min_le_right ..
  rw [on_eq p b.chars hpos, drop_min_length]
  rfl

theorem operatorsStart_eq (b : Buffer) (pos : Nat) :
    operatorsStart b pos = some (b.operatorsStart pos) :=
  runStart_eq b _ pos

theorem operatorsStop_eq (b : Buffer) (pos : Nat) :
    operatorsStop b pos = some (b.operatorsStop pos) :=
  runStop_eq b _ pos

theorem slice_append (before run after : List Char) :
    slice (before ++ run ++ after) before.length (before.length + run.length) = some run := by
  have hrange : before.length ≤ before.length + run.length ∧
      before.length + run.length ≤ (before ++ run ++ after).length := by
    constructor
    · exact Nat.le_add_right ..
    · simp
  rw [slice, if_pos hrange, ← List.length_append, List.take_left, List.drop_left]

/-- The range of a run holds the run: what is before the position and what is after it. -/
theorem slice_run (b : Buffer) (p : Char → Bool) (pos : Nat) :
    slice b.chars (b.runStart p pos) (b.runStop p pos) =
      some ((b.runBefore p pos).reverse ++ b.runAfter p pos) := by
  obtain ⟨before, left, right, after, hleft, hright, hrun⟩ := b.exists_run_around p pos
  obtain ⟨hbefore, hafter⟩ := Buffer.run_parts hleft hright hrun
  obtain ⟨hstart, hstop, hsplit⟩ := Buffer.run_around hleft hright hrun
  rw [hstart, hstop, hsplit, hbefore, hafter, List.reverse_reverse]
  exact slice_append before (left ++ right) after

theorem segmentPoints_eq (b : Buffer) (pos : Nat) :
    segmentPoints b pos = some (b.segmentPoints pos) := by
  rw [segmentPoints, runStart_eq, runStop_eq]
  simp only [Option.bind_eq_bind, Option.bind_some]
  rw [slice_run, Option.bind_some, List.count_append, List.count_reverse]
  rfl

/-! ## The number at the end -/

/-- Goes back over digits, and over one point unless there was one before. -/
def numberBack (chars : List Char) : Nat → Bool → Option Nat
  | 0, _ => some 0
  | pos + 1, seenPoint => do
    let c ← chars[pos]?
    if c.isDigit then numberBack chars pos seenPoint
    else if c == '.' && !seenPoint then numberBack chars pos true
    else some (pos + 1)

/-- Where the number at the end of the text starts, if it ends with one. -/
def trailingNumber (b : Buffer) : Option (Option Nat) := do
  let start ← numberBack b.chars b.length false
  let suffix ← slice b.chars start b.length
  some (if suffix.any Char.isDigit then some start else none)

/-- The number at the end of a text that is given backwards, the last character first. -/
def numberRun (seenPoint : Bool) : List Char → List Char
  | [] => []
  | c :: rest =>
    if c.isDigit then c :: numberRun seenPoint rest
    else if c == '.' && !seenPoint then c :: numberRun true rest
    else []

theorem numberRun_true (text : List Char) : numberRun true text = text.takeWhile Char.isDigit := by
  induction text with
  | nil => rfl
  | cons c text ih =>
    rw [numberRun, List.takeWhile_cons, ih]
    simp

theorem numberRun_false (text : List Char) :
    (numberRun false text).reverse = Buffer.numberSuffix text.reverse := by
  rw [Buffer.numberSuffix, List.reverse_reverse]
  induction text with
  | nil => rfl
  | cons c text ih =>
    rw [numberRun]
    by_cases hc : c.isDigit = true
    · rw [if_pos hc, List.reverse_cons, ih, List.takeWhile_cons_of_pos hc,
        List.dropWhile_cons_of_pos hc]
      split <;> simp
    · rw [if_neg hc, List.takeWhile_cons_of_neg hc, List.dropWhile_cons_of_neg hc]
      by_cases hp : c = '.'
      · subst hp
        simp [numberRun_true]
      · simp [hp]

theorem numberRun_prefix (seenPoint : Bool) (text : List Char) :
    numberRun seenPoint text <+: text := by
  induction text generalizing seenPoint with
  | nil => exact List.prefix_refl _
  | cons c text ih =>
    rw [numberRun]
    split
    · exact (List.prefix_cons_inj c).mpr (ih _)
    · split
      · exact (List.prefix_cons_inj c).mpr (ih _)
      · exact List.nil_prefix

theorem numberBack_eq (chars : List Char) {pos : Nat} (h : pos ≤ chars.length) :
    ∀ seenPoint, numberBack chars pos seenPoint =
      some (pos - (numberRun seenPoint (chars.take pos).reverse).length) := by
  induction pos with
  | zero => exact fun _ => rfl
  | succ pos ih =>
    intro seenPoint
    have hrest := ih (Nat.le_of_lt h)
    rw [numberBack, List.getElem?_eq_getElem h, Option.bind_eq_bind, Option.bind_some,
      List.take_succ_eq_append_getElem h, List.reverse_append, List.reverse_singleton,
      List.singleton_append, numberRun]
    split
    · rw [hrest, List.length_cons, Nat.add_sub_add_right]
    · split
      · rw [hrest, List.length_cons, Nat.add_sub_add_right]
      · rfl

theorem numberSuffix_eq (text : List Char) :
    Buffer.numberSuffix text = (numberRun false text.reverse).reverse := by
  rw [numberRun_false, List.reverse_reverse]

theorem exists_front (text : List Char) : ∃ front, text = front ++ Buffer.numberSuffix text := by
  obtain ⟨rest, hrest⟩ := numberRun_prefix false text.reverse
  refine ⟨rest.reverse, ?_⟩
  rw [numberSuffix_eq, ← List.reverse_append, hrest, List.reverse_reverse]

theorem trailingNumber_eq (b : Buffer) : trailingNumber b = some b.trailingNumber? := by
  have hsuffix := numberSuffix_eq b.chars
  -- The loop stops where the number starts, so what it leaves is all that is in front of it.
  obtain ⟨front, hfront⟩ := exists_front b.chars
  have hlength : b.length = front.length + (Buffer.numberSuffix b.chars).length := by
    rw [← List.length_append, ← hfront]
    rfl
  have hstart : numberBack b.chars b.length false = some front.length := by
    rw [numberBack_eq b.chars (Nat.le_refl b.length), List.take_of_length_le (Nat.le_refl b.length),
      ← List.length_reverse, ← hsuffix, hlength, Nat.add_sub_cancel]
  have hslice := slice_append front (Buffer.numberSuffix b.chars) []
  rw [List.append_nil, ← hfront, ← hlength] at hslice
  rw [trailingNumber, hstart, Option.bind_eq_bind, Option.bind_some, hslice,
    Buffer.trailingNumber?, hlength, Nat.add_sub_cancel]
  rfl

end Checked

end PocketCalculator
