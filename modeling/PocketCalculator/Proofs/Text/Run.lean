import Mathlib.Data.List.TakeWhile

/-!
# Runs of characters

A run is all that characters of one kind have at a place of a text. `IsRun` says so of three parts
of a text, and `isRun_around` finds the run at a place from what both sides have of it.
-/

namespace PocketCalculator.Text

/-- Between the texts before and after it, this is all that characters with `p` have there. -/
structure IsRun (p : Char → Bool) (before run after : List Char) : Prop where
  all : ∀ c ∈ run, p c = true
  before : ∀ c ∈ before.getLast?, p c = false
  after : ∀ c ∈ after.head?, p c = false

theorem head?_dropWhile {α : Type} {p : α → Bool} {items : List α} :
    ∀ a ∈ (items.dropWhile p).head?, p a = false := by
  intro a ha
  have hn := List.head?_dropWhile_not p items
  rw [Option.mem_def.mp ha] at hn
  simpa using hn

variable {p : Char → Bool} {text more : List Char}

/-- The characters with `p` at the end of a text, the last first. -/
def runBack (p : Char → Bool) (text : List Char) : List Char :=
  text.reverse.takeWhile p

theorem runBack_append (h : ∀ c ∈ more, p c = true) :
    runBack p (text ++ more) = more.reverse ++ runBack p text := by
  rw [runBack, List.reverse_append, List.takeWhile_append_of_pos]
  · rfl
  · exact fun c hc => h c (List.mem_reverse.mp hc)

theorem runBack_concat {c : Char} :
    runBack p (text ++ [c]) = if p c then c :: runBack p text else [] := by
  rw [runBack, List.reverse_append, List.reverse_singleton, List.singleton_append,
    List.takeWhile_cons]
  rfl

theorem runBack_eq_nil (h : ∀ c ∈ text.getLast?, p c = false) : runBack p text = [] := by
  rw [List.getLast?_eq_head?_reverse] at h
  rw [runBack]
  cases hr : text.reverse with
  | nil => rfl
  | cons c rest => rw [List.takeWhile_cons, h c (by rw [hr]; rfl), if_neg Bool.false_ne_true]

/-- The run at a place: what both sides have of it. -/
theorem isRun_around (p : Char → Bool) (left right : List Char) :
    ∃ before, left = before ++ (runBack p left).reverse ∧
      IsRun p before ((runBack p left).reverse ++ right.takeWhile p) (right.dropWhile p) := by
  refine ⟨(left.reverse.dropWhile p).reverse, ?_, ?_, ?_, head?_dropWhile⟩
  · rw [← List.reverse_append, runBack, List.takeWhile_append_dropWhile, List.reverse_reverse]
  · intro c hc
    rcases List.mem_append.mp hc with hc | hc
    · exact List.mem_takeWhile_imp (List.mem_reverse.mp hc)
    · exact List.mem_takeWhile_imp hc
  · rw [List.getLast?_reverse]
    exact head?_dropWhile

end PocketCalculator.Text
