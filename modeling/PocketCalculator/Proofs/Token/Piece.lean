import PocketCalculator.Proofs.Text.Run
import PocketCalculator.Token.Scan

/-!
# The pieces of a text

A text is blanks and pieces. A piece is a row of digits and points or of ASCII letters, as far as it
reaches, or any other single character (`IsPiece`). `next?_eq_some` says that `next?` skips the
blanks and takes one piece, and `scan_induction` turns that into an induction over the pieces of a
text, which is how facts about all tokens of a text are proved.
-/

namespace PocketCalculator.Token

open Text (head?_dropWhile)

/-- The characters in front of `rest` are one piece, and this is what it is read as. -/
inductive IsPiece (rest : List Char) : List Char → Except EvalError Token → Prop where
  | number {c : Char} {more : List Char} (all : ∀ d ∈ c :: more, isNumeric d = true)
    (stop : ∀ d ∈ rest.head?, isNumeric d = false) :
    IsPiece rest (c :: more) (ofNumber (c :: more))
  | name {c : Char} {more : List Char} (all : ∀ d ∈ c :: more, d.isAlpha = true)
    (stop : ∀ d ∈ rest.head?, d.isAlpha = false) :
    IsPiece rest (c :: more) (ofName (c :: more))
  | symbol {c : Char} (blank : Text.isBlank c = false) (numeric : isNumeric c = false)
    (alpha : c.isAlpha = false) :
    IsPiece rest [c] (ofSymbol c)

/-- Only blanks are left where nothing is read. -/
theorem next?_eq_none {text : List Char} (h : next? text = none) :
    ∀ c ∈ text, Text.isBlank c = true := by
  induction text with
  | nil => simp
  | cons c text ih =>
    unfold next? at h
    split at h
    · next hb => exact List.forall_mem_cons.mpr ⟨hb, ih h⟩
    · split at h
      · cases h
      · split at h <;> cases h

/-- **One piece is read**, behind the blanks in front of it. -/
theorem next?_eq_some {text rest : List Char} {result : Except EvalError Token}
    (h : next? text = some (result, rest)) :
    ∃ blanks piece, text = blanks ++ piece ++ rest ∧ (∀ c ∈ blanks, Text.isBlank c = true) ∧
      IsPiece rest piece result := by
  induction text with
  | nil => cases h
  | cons c text ih =>
    unfold next? at h
    split at h
    · next hb =>
      obtain ⟨blanks, piece, rfl, hall, hp⟩ := ih h
      exact ⟨c :: blanks, piece, rfl, List.forall_mem_cons.mpr ⟨hb, hall⟩, hp⟩
    · next hb =>
      split at h
      · next hc =>
        cases h
        refine ⟨[], c :: text.takeWhile isNumeric, ?_, by simp, .number ?_ head?_dropWhile⟩
        · simp [List.takeWhile_append_dropWhile]
        · exact List.forall_mem_cons.mpr ⟨hc, fun d hd => List.mem_takeWhile_imp hd⟩
      · next hn =>
        split at h
        · next hc =>
          cases h
          refine ⟨[], c :: text.takeWhile Char.isAlpha, ?_, by simp, .name ?_ head?_dropWhile⟩
          · simp [List.takeWhile_append_dropWhile]
          · exact List.forall_mem_cons.mpr ⟨hc, fun d hd => List.mem_takeWhile_imp hd⟩
        · next ha =>
          cases h
          exact ⟨[], [c], rfl, by simp, .symbol (by simpa using hb) (by simpa using hn)
            (by simpa using ha)⟩

/-- **Induction over the pieces of a text.** -/
theorem scan_induction {P : List Char → List (Except EvalError Token) → Prop}
    (nil : ∀ blanks, (∀ c ∈ blanks, Text.isBlank c = true) → P blanks [])
    (cons : ∀ blanks piece rest result, (∀ c ∈ blanks, Text.isBlank c = true) →
      IsPiece rest piece result → P rest (scan rest) →
      P (blanks ++ piece ++ rest) (result :: scan rest)) (text : List Char) :
    P text (scan text) := by
  induction hn : text.length using Nat.strongRecOn generalizing text with
  | _ n ih =>
    subst hn
    cases h : next? text with
    | none =>
      rw [scan_of_next?_none h]
      exact nil text (next?_eq_none h)
    | some read =>
      obtain ⟨result, rest⟩ := read
      rw [scan_of_next?_some h]
      have hrest := ih _ (length_lt_of_next? h) rest rfl
      obtain ⟨blanks, piece, rfl, hb, hp⟩ := next?_eq_some h
      exact cons blanks piece rest result hb hp hrest

/-! ## All tokens -/

theorem mapM_id_eq_ok {items : List (Except EvalError Token)} {list : List Token} :
    items.mapM id = .ok list ↔ items = list.map .ok := by
  induction items generalizing list with
  | nil => cases list <;> simp [pure, Except.pure]
  | cons item items ih =>
    rw [List.mapM_cons]
    simp only [EvalError.bind_eq_ok, ih]
    cases list with
    | nil => simp [pure, Except.pure]
    | cons token list =>
      simp [pure, Except.pure]

/-- A text has tokens if all its pieces are tokens. -/
theorem tokens_eq_ok_iff {text : List Char} {list : List Token} :
    tokens text = .ok list ↔ scan text = list.map .ok :=
  mapM_id_eq_ok

end PocketCalculator.Token
