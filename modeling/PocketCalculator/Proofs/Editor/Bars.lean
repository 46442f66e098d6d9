import PocketCalculator.Proofs.Editor.Entry
import PocketCalculator.Proofs.Evaluation.Operands
import PocketCalculator.Proofs.Grammar.Bars
import PocketCalculator.Proofs.Token.Seam

/-!
# A digit behind a bar

Behind a bar that closes an absolute value a digit is a factor, and behind one that opens it is the
beginning of an operand. The editor takes every second bar for one that closes. `digit_behind_bar` says
where that is what the bar does in the sum: where an even number of absolute values are around its own.
So absolute values one behind the other are told apart, and those inside each other are not.
-/

namespace PocketCalculator

namespace Token

/-- A piece has a bar in it only if it is one. -/
theorem IsPiece.count_bar {rest piece : List Char} {token : Token}
    (h : IsPiece rest piece (.ok token)) : piece.count '|' = [token].count .bar := by
  generalize hresult : Except.ok token = result at h
  cases h with
  | number all _ =>
    obtain ⟨d, -, rfl⟩ := ofNumber_eq_ok hresult.symm
    exact List.count_eq_zero.mpr fun hbar => absurd (all _ hbar) (by decide)
  | name all _ =>
    have htoken : [token].count .bar = 0 := by
      rcases ofName_eq_ok hresult.symm with ⟨_, -, -, rfl⟩ | ⟨-, rfl⟩ | ⟨-, rfl⟩ <;> rfl
    rw [htoken]
    exact List.count_eq_zero.mpr fun hbar => absurd (all _ hbar) (by decide)
  | @symbol c _ _ _ =>
    by_cases hc : c = '|'
    · subst hc
      obtain rfl : token = .bar := Except.ok.inj hresult
      rfl
    · have htoken : [token].count .bar = 0 := by
        unfold ofSymbol at hresult
        split at hresult <;> cases hresult <;> first | rfl | exact absurd rfl hc
      rw [htoken]
      exact List.count_eq_zero.mpr fun hbar => hc (List.mem_singleton.mp hbar).symm

/-- **The bars of a text are those among its tokens.** -/
theorem count_bar {text : List Char} {list : List Token} (h : tokens text = .ok list) :
    text.count '|' = list.count .bar := by
  rw [tokens_eq_ok_iff] at h
  revert h list
  refine scan_induction (P := fun text pieces => ∀ {list : List Token}, pieces = list.map .ok →
    text.count '|' = list.count .bar) ?_ ?_ text
  · intro blanks hblanks list h
    rw [List.map_eq_nil_iff.mp h.symm]
    exact List.count_eq_zero.mpr fun hbar => absurd (hblanks _ hbar) (by decide)
  · intro blanks piece rest result hblanks hpiece ih list h
    obtain ⟨token, list, rfl, rfl, hrest⟩ := List.map_eq_cons_iff.mp h.symm
    have hnone : blanks.count '|' = 0 :=
      List.count_eq_zero.mpr fun hbar => absurd (hblanks _ hbar) (by decide)
    rw [List.count_append, List.count_append, hnone, Nat.zero_add, hpiece.count_bar, ih hrest.symm,
      ← List.count_append, List.singleton_append]

end Token

namespace Editor

open Grammar (Bracketing BarAt barsAround exists_barAt)

variable {s : Editor} {c : Char} {tokens : List Token} {tree : Expr}

/-- The editor counts the bars up to the cursor. -/
theorem insertDigit_behind_bar (hbar : s.buffer.charBefore? s.cursor = some '|') (c : Char) :
    s.insertDigit c =
      s.insert (if Even ((s.buffer.chars.take s.cursor).count '|') then ['*', c] else [c]) := by
  have hzero : s.buffer.isZero = false := by
    refine beq_eq_false_iff_ne.mpr fun hchars => ?_
    have hmem : '|' ∈ s.buffer.chars.take s.cursor := by
      rw [take_eq_concat hbar]
      exact List.mem_append_right _ List.mem_cons_self
    have hmem := List.mem_of_mem_take hmem
    rw [hchars] at hmem
    cases List.mem_singleton.mp hmem
  rw [insertDigit, hzero, if_neg Bool.false_ne_true, afterClosedOperand, hbar]
  simp only [beq_iff_eq, Nat.even_iff]
  split <;> rfl

theorem insert_factor_ne (s : Editor) (c : Char) : s.insert ['*', c] ≠ s.insert [c] := by
  intro h
  have hlength := congrArg (fun t : Editor => t.buffer.chars.length) h
  rw [chars_insert (by simp), chars_insert (by simp)] at hlength
  simp at hlength

/-- **A digit behind a bar.** It is put in as a factor if the number of bars up to the cursor is even. That
is right, so it is a factor if that bar closes an absolute value and an operand if it opens one, exactly
where an even number of absolute values are around the one that the bar belongs to. -/
theorem digit_behind_bar (hoverlay : s.overlay = none)
    (htokens : Token.tokens s.buffer.chars = .ok tokens) (htree : Expr.ofTokens tokens = .ok tree)
    (hbar : s.buffer.charBefore? s.cursor = some '|') (hc : c.isDigit = true) :
    ∃ front before step, Token.tokens (s.buffer.chars.take (s.cursor - 1)) = .ok front ∧
      BarAt tokens tree front before step ∧
      s.apply (.digit c) = s.insert (if Even (front.count .bar + 1) then ['*', c] else [c]) ∧
      (s.apply (.digit c) = s.insert (if step = .D then ['*', c] else [c]) ↔
        Even (barsAround before step)) := by
  have htake := take_eq_concat hbar
  obtain ⟨front, hfront, hlead⟩ : ∃ front,
      Token.tokens (s.buffer.chars.take (s.cursor - 1)) = .ok front ∧ front ++ [.bar] <+: tokens := by
    have hsymbol : Token.IsSymbol '|' := by decide
    rw [← List.take_append_drop s.cursor s.buffer.chars, htake, List.append_assoc,
      List.singleton_append, Token.tokens_eq_ok_iff, Token.scan_append_symbol hsymbol, eq_comm,
      List.map_eq_append_iff] at htokens
    obtain ⟨front, rest, rfl, hfront, hrest⟩ := htokens
    obtain ⟨token, after, rfl, htoken, -⟩ := List.map_eq_cons_iff.mp hrest
    obtain rfl : token = .bar := Except.ok.inj htoken
    exact ⟨front, Token.tokens_eq_ok_iff.mpr hfront.symm, after, List.append_cons .. |>.symm⟩
  obtain ⟨before, step, hat⟩ := exists_barAt htree hlead
  have hpress : s.apply (.digit c)
      = s.insert (if Even (front.count .bar + 1) then ['*', c] else [c]) := by
    rw [apply_digit hoverlay hc, insertDigit_behind_bar hbar, htake, List.count_append,
      Token.count_bar hfront, List.count_singleton_self]
  refine ⟨front, before, step, hfront, hat, hpress, ?_⟩
  rw [hpress, ← hat.closes_iff_even]
  have hne := insert_factor_ne s c
  by_cases heven : Even (front.count .bar + 1) <;> by_cases hstep : step = .D <;>
    simp [heven, hstep, hne, hne.symm]

/-! ## Absolute values of three -/

theorem tokens_three : Token.tokens ['3'] = .ok [.number 3] := by
  have hthree : Token.ofNumber ['3'] = .ok (.number 3) := by
    unfold Token.ofNumber
    decide
  exact Token.tokens_number_row (by simp [Token.isNumeric]) hthree

theorem tokens_bar {text : List Char} (h : Token.tokens text = .ok tokens) :
    Token.tokens ('|' :: text) = .ok (.bar :: tokens) := by
  have hsymbol : Token.IsSymbol '|' := by decide
  rw [Token.tokens_eq_ok_iff, Token.scan_cons_symbol hsymbol, Token.tokens_eq_ok_iff.mp h]
  rfl

theorem tokens_bars {text : List Char} (h : Token.tokens text = .ok tokens) :
    Token.tokens ('|' :: (text ++ ['|'])) = .ok (.bar :: (tokens ++ [.bar])) :=
  tokens_bar ((Token.tokens_concat_symbol (by decide)).mpr ⟨tokens, .bar, h, rfl, rfl⟩)

/-- Behind an absolute value a digit is a factor. -/
theorem factor_behind_absolute_value :
    let s := initial.run [.withMode .scientific, .event (.digit '3'), .event (.function .abs)]
    let tokens := [Token.bar, .number 3, .bar]
    let tree := Expr.call .abs (.number 3)
    s.buffer.chars = "|3|".toList ∧ s.overlay = none ∧
      Token.tokens s.buffer.chars = .ok tokens ∧ Expr.ofTokens tokens = .ok tree ∧
      s.buffer.charBefore? s.cursor = some '|' ∧ ('7').isDigit = true ∧
      BarAt tokens tree [.bar, .number 3] [.U] .D ∧
      s.apply (.digit '7') = s.insert ['*', '7'] := by
  intro s tokens tree
  have hoverlay : s.overlay = none := by decide
  have hbar : s.buffer.charBefore? s.cursor = some '|' := by decide
  have htokens : Token.tokens s.buffer.chars = .ok tokens := tokens_bars tokens_three
  have htree : Expr.ofTokens tokens = .ok tree := rfl
  have hsteps : Bracketing tokens tree [.U, .D] := ⟨rfl, rfl⟩
  refine ⟨by decide, hoverlay, htokens, htree, hbar, by decide, ?_⟩
  obtain ⟨front, before, step, hfront, hat, -, hright⟩ :=
    digit_behind_bar hoverlay htokens htree hbar (by decide : ('7').isDigit = true)
  obtain rfl : [.bar, .number 3] = front :=
    Except.ok.inj ((tokens_bar tokens_three).symm.trans hfront)
  obtain ⟨first, rfl⟩ := List.length_eq_one_iff.mp hat.length
  obtain ⟨after, hafter⟩ := hat.leads hsteps
  obtain ⟨rfl, hrest⟩ := List.cons.inj hafter
  obtain ⟨rfl, -⟩ := List.cons.inj hrest
  exact ⟨hat, hright.mpr (by decide)⟩

/-- In an absolute value of an absolute value the inner bar opens, and a digit behind it is put in as a
factor nevertheless. -/
theorem factor_in_absolute_value :
    let s := initial.run [.withMode .scientific, .event (.digit '3'), .event (.function .abs),
      .event (.function .abs), .event (.move .home), .event (.move .right), .event (.move .right)]
    let tokens := [Token.bar, .bar, .number 3, .bar, .bar]
    let tree := Expr.call .abs (.call .abs (.number 3))
    s.buffer.chars = "||3||".toList ∧ s.cursor = 2 ∧ s.overlay = none ∧
      Token.tokens s.buffer.chars = .ok tokens ∧ Expr.ofTokens tokens = .ok tree ∧
      s.buffer.charBefore? s.cursor = some '|' ∧ BarAt tokens tree [.bar] [.U] .U ∧
      s.apply (.digit '7') = s.insert ['*', '7'] ∧
      (s.apply (.digit '7')).buffer.chars = "||*73||".toList ∧
      s.apply (.digit '7') ≠ s.insert ['7'] := by
  intro s tokens tree
  have htree : Expr.ofTokens tokens = .ok tree := rfl
  have hsteps : Bracketing tokens tree [.U, .U, .D, .D] := ⟨rfl, rfl⟩
  have hat : BarAt tokens tree [.bar] [.U] .U :=
    hsteps.barAt htree ⟨[.number 3, .bar, .bar], rfl⟩ rfl
  exact ⟨by decide, by decide, by decide, tokens_bars (tokens_bars tokens_three), htree, by decide,
    hat, by decide, by decide, by decide⟩

end Editor

end PocketCalculator
