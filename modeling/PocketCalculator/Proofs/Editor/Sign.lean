import PocketCalculator.Proofs.Editor.Change

/-!
# The sign key, pressed twice

The sign key looks at the character before the number at the end of the entry, and at the one before
that. If the number has no sign it is given one (`toggleSign_unsigned`), and if it has one it loses
it (`toggleSign_signed`). The first undoes the second and the second the first, but for what the key
cannot tell afterwards: a minus that it put behind something other than an operator or an opening
bracket is a subtraction when it looks again. `signToggle_twice_iff` says where the key is undone by
itself.
-/

namespace PocketCalculator

namespace Buffer

open Checked (numberRun numberSuffix_eq)

variable {b b' : Buffer} {front number text : List Char}

/-! ## The number at the end -/

theorem numberRun_eq_nil {seenPoint : Bool}
    (h : ∀ c ∈ text.head?, Editor.isNumberChar c = false) : numberRun seenPoint text = [] := by
  cases text with
  | nil => rfl
  | cons c text =>
    have hc := h c rfl
    rw [Editor.isNumberChar, Bool.or_eq_false_iff] at hc
    rw [numberRun, hc.1, hc.2]
    rfl

/-- A number is found again in front of something else. -/
theorem numberRun_append {rest : List Char}
    (hrest : ∀ c ∈ rest.head?, Editor.isNumberChar c = false) (seenPoint : Bool) :
    numberRun seenPoint (numberRun seenPoint text ++ rest) = numberRun seenPoint text := by
  induction text generalizing seenPoint with
  | nil => exact numberRun_eq_nil hrest
  | cons c text ih =>
    rw [numberRun]
    split
    · next hdigit => rw [List.cons_append, numberRun, if_pos hdigit, ih]
    · next hdigit =>
      split
      · next hpoint => rw [List.cons_append, numberRun, if_neg hdigit, if_pos hpoint, ih]
      · exact numberRun_eq_nil hrest

theorem isNumberChar_of_mem_numberRun {seenPoint : Bool} {c : Char}
    (h : c ∈ numberRun seenPoint text) : Editor.isNumberChar c = true := by
  induction text generalizing seenPoint with
  | nil => cases h
  | cons d text ih =>
    rw [numberRun] at h
    split at h
    · next hdigit =>
      rcases List.mem_cons.mp h with rfl | h
      · rw [Editor.isNumberChar, hdigit, Bool.true_or]
      · exact ih h
    · split at h
      · next hpoint =>
        rcases List.mem_cons.mp h with rfl | h
        · rw [Editor.isNumberChar, (Bool.and_eq_true_iff.mp hpoint).1, Bool.or_true]
        · exact ih h
      · cases h

/-- The text ends with this number. -/
structure EndsWith (b : Buffer) (front number : List Char) : Prop where
  chars : b.chars = front ++ number
  suffix : numberSuffix b.chars = number
  digit : number.any Char.isDigit = true

theorem EndsWith.trailingNumber? (h : b.EndsWith front number) :
    b.trailingNumber? = some front.length := by
  have hlength := congrArg List.length h.chars
  rw [List.length_append] at hlength
  unfold Buffer.trailingNumber?
  dsimp only
  rw [h.suffix, if_pos h.digit, length, hlength, Nat.add_sub_cancel]

theorem EndsWith.length (h : b.EndsWith front number) :
    b.length = front.length + number.length := by
  rw [Buffer.length, h.chars, List.length_append]

theorem EndsWith.ne_nil (h : b.EndsWith front number) : number ≠ [] := by
  rintro rfl
  cases h.digit

theorem exists_endsWith {start : Nat} (h : b.trailingNumber? = some start) :
    ∃ front number, b.EndsWith front number ∧ start = front.length := by
  obtain ⟨front, hchars⟩ := Checked.exists_front b.chars
  unfold Buffer.trailingNumber? at h
  dsimp only at h
  split at h
  · next hdigit =>
    have hends : b.EndsWith front (numberSuffix b.chars) := ⟨hchars, rfl, hdigit⟩
    have hstart := hends.trailingNumber?
    unfold Buffer.trailingNumber? at hstart
    dsimp only at hstart
    rw [if_pos hdigit] at hstart
    exact ⟨_, _, hends, Option.some.inj (h.symm.trans hstart)⟩
  · cases h

theorem EndsWith.isNumberChar (h : b.EndsWith front number) {c : Char} (hc : c ∈ number) :
    Editor.isNumberChar c = true := by
  rw [← h.suffix, numberSuffix_eq, List.mem_reverse] at hc
  exact isNumberChar_of_mem_numberRun hc

/-- Behind another text it is the same number, if that text does not end as numbers do. -/
theorem EndsWith.behind (h : b.EndsWith front number) {front' : List Char}
    (hchars : b'.chars = front' ++ number)
    (hfront : ∀ c ∈ front'.getLast?, Editor.isNumberChar c = false) :
    b'.EndsWith front' number where
  chars := hchars
  suffix := by
    have hnumber := h.suffix
    rw [numberSuffix_eq, List.reverse_eq_iff] at hnumber
    rw [List.getLast?_eq_head?_reverse] at hfront
    rw [hchars, numberSuffix_eq, List.reverse_append, ← hnumber, numberRun_append hfront, hnumber,
      List.reverse_reverse]
  digit := h.digit

end Buffer

namespace Editor

open Buffer (Formed EndsWith operatorsBefore formed_append meet_parts splice_parts)

/-! ## Signs -/

/-- A minus behind this text is a sign. -/
def signFits (front : List Char) : Bool :=
  front.getLast?.all fun c => Glyph.isOperator c || c == '('

/-- What is at this position has a sign. -/
def isSigned (b : Buffer) (start : Nat) : Bool :=
  b.charBefore? start == some '-' && isSignPosition b (start - 1)

variable {s : Editor} {b : Buffer} {front back number : List Char}

theorem isSignPosition_eq (h : b.chars = front ++ number) :
    isSignPosition b front.length = signFits front := by
  rw [isSignPosition, (seam_of_take_drop h).1, signFits]
  cases front.getLast? <;> rfl

theorem isSigned_iff (h : b.chars = front ++ number) :
    isSigned b front.length = true ↔ ∃ back, front = back ++ ['-'] ∧ signFits back = true := by
  have hposition : ∀ back, front = back ++ ['-'] →
      isSignPosition b (front.length - 1) = signFits back := by
    rintro back rfl
    rw [List.append_assoc] at h
    rw [List.length_append, List.length_singleton, Nat.add_sub_cancel, isSignPosition_eq h]
  rw [isSigned, Bool.and_eq_true, beq_iff_eq, (seam_of_take_drop h).1, List.getLast?_eq_some_iff]
  constructor
  · rintro ⟨⟨back, hfront⟩, hsign⟩
    exact ⟨back, hfront, hposition back hfront ▸ hsign⟩
  · rintro ⟨back, hfront, hsign⟩
    exact ⟨⟨back, hfront⟩, (hposition back hfront).trans hsign⟩

theorem signFits_iff :
    signFits front = true ↔ ∀ c ∈ front.getLast?, Glyph.isOperator c = true ∨ c = '(' := by
  rw [signFits]
  cases front.getLast? with
  | none => simp
  | some c => simp

/-- What a sign may stand behind is no part of a number. -/
theorem isNumberChar_of_signFits (h : signFits front = true) :
    ∀ c ∈ front.getLast?, isNumberChar c = false := by
  intro c hc
  rcases signFits_iff.mp h c hc with hoperator | rfl
  · unfold Glyph.isOperator at hoperator
    simp only [Bool.or_eq_true, beq_iff_eq] at hoperator
    rcases hoperator with (((rfl | rfl) | rfl) | rfl) | rfl <;> rfl
  · rfl

/-! ## The shape of signed entries -/

/-- If there is no sign yet, there is one operator at most for it to stand behind. -/
theorem operatorsBefore_le_one (hformed : Formed front)
    (hunsigned : ¬ ∃ back, front = back ++ ['-'] ∧ signFits back = true) :
    operatorsBefore front ≤ 1 := by
  rcases List.eq_nil_or_concat' front with rfl | ⟨back, c, rfl⟩
  · exact Nat.zero_le _
  · by_cases hc : Glyph.isOperator c = true
    · rw [(Buffer.before_operator back hc).2]
      have hfits := (Buffer.continuesWell_iff (back ++ [c]) []).mp hformed back c [] rfl
      rcases hfits.1 hc with hnone | ⟨hone, rfl⟩
      · rw [List.nil_append] at hnone
        rw [hnone]
      · -- The operator before the minus makes it a sign.
        rw [List.nil_append] at hone
        refine absurd ⟨back, rfl, signFits_iff.mpr fun d hd => ?_⟩ hunsigned
        by_contra hd'
        rw [not_or, Bool.not_eq_true] at hd'
        have hnone : operatorsBefore back = 0 := by
          refine operatorsBefore_eq_zero fun e he => ?_
          rw [Option.mem_unique he hd]
          exact hd'.1
        omega
    · rw [Bool.not_eq_true] at hc
      rw [(Buffer.before_operand back hc).2]
      exact Nat.zero_le _

theorem formed_insertSign (h : b.EndsWith front number) (hformed : Formed b.chars)
    (hunsigned : ¬ ∃ back, front = back ++ ['-'] ∧ signFits back = true) :
    Formed (front ++ '-' :: number) := by
  rw [h.chars] at hformed
  obtain ⟨hfront, hnumber, hpoints⟩ := meet_parts hformed
  have hone := operatorsBefore_le_one hfront hunsigned
  have hrest : Buffer.continuesWell 0 (operatorsBefore front + 1) number = true := by
    refine hnumber.continuesWell (by omega) (.inr fun c hc => ?_)
    exact isOperator_of_isNumberChar (h.isNumberChar (List.mem_of_mem_head? hc))
  refine formed_append.mpr ⟨hfront, ?_⟩
  rw [Buffer.continuesWell, if_pos (by decide), hrest, Bool.and_true]
  rcases Nat.le_one_iff_eq_zero_or_eq_one.mp hone with hzero | hone
  · rw [hzero]
    rfl
  · rw [hone]
    rfl

/-! ## One press -/

/-- A minus put in between these two parts of the entry. -/
def withSign (s : Editor) (front number : List Char) : Editor :=
  { s with
    buffer := .ofChars (front ++ '-' :: number)
    cursor := if front.length ≤ s.cursor then s.cursor + 1 else s.cursor }

/-- The character between these two parts of the entry taken out. -/
def withoutSign (s : Editor) (front number : List Char) : Editor :=
  { s with
    buffer := .ofChars (front ++ number)
    cursor := if front.length < s.cursor then s.cursor - 1 else s.cursor }

theorem length_withSign (s : Editor) (front number : List Char) :
    (s.withSign front number).buffer.length = front.length + number.length + 1 := by
  rw [withSign, Buffer.length, Buffer.chars_ofChars (by simp), List.length_append,
    List.length_cons, Nat.add_assoc]

theorem length_withoutSign (s : Editor) (front : List Char) (hnumber : number ≠ []) :
    (s.withoutSign front number).buffer.length = front.length + number.length := by
  rw [withoutSign, Buffer.length,
    Buffer.chars_ofChars (List.append_ne_nil_of_right_ne_nil front hnumber), List.length_append]

/-- To take out what was put in leads back. -/
theorem withoutSign_withSign (h : s.buffer.chars = front ++ number) :
    (s.withSign front number).withoutSign front number = s := by
  have hcursor : ((s.withSign front number).withoutSign front number).cursor = s.cursor := by
    dsimp only [withoutSign, withSign]
    split <;> split <;> omega
  have hbuffer : ((s.withSign front number).withoutSign front number).buffer = s.buffer := by
    rw [withoutSign, ← h, Buffer.ofChars_chars]
  exact congrArg₂ (fun buffer cursor => { s with buffer, cursor }) hbuffer hcursor

theorem buffer_withSign_withoutSign (h : s.buffer.chars = front ++ '-' :: number) :
    ((s.withoutSign front number).withSign front number).buffer = s.buffer := by
  rw [withSign, ← h, Buffer.ofChars_chars]

/-- To put in what was taken out leads back, but the cursor is moved if it was just before that. -/
theorem withSign_withoutSign (h : s.buffer.chars = front ++ '-' :: number) :
    (s.withoutSign front number).withSign front number = s ↔ s.cursor ≠ front.length := by
  have hcursor : ((s.withoutSign front number).withSign front number).cursor = s.cursor ↔
      s.cursor ≠ front.length := by
    dsimp only [withoutSign, withSign]
    split <;> split <;> omega
  rw [← hcursor]
  constructor
  · intro heq
    rw [heq]
  · intro heq
    exact congrArg₂ (fun buffer cursor => { s with buffer, cursor })
      (buffer_withSign_withoutSign h) heq

theorem toggleSign_unsigned (hzero : s.buffer.isZero = false) (h : s.buffer.EndsWith front number)
    (hsigned : isSigned s.buffer front.length = false) :
    s.toggleSign = s.withSign front number := by
  have hparts : s.buffer.chars = front ++ [] ++ number := by
    rw [List.append_nil, h.chars]
  have hinsert : (s.buffer.insert front.length ['-']).1 = .ofChars (front ++ '-' :: number) := by
    have hsplice := splice_parts hparts ['-']
    rw [List.length_nil, Nat.add_zero, List.append_assoc] at hsplice
    exact hsplice
  unfold isSigned at hsigned
  rw [toggleSign, if_neg (Bool.eq_false_iff.mp hzero), h.trailingNumber?]
  dsimp only
  rw [if_neg (Bool.eq_false_iff.mp hsigned), hinsert]
  rfl

/-- The entry without the sign at a position. -/
theorem splice_sign (h : b.chars = front ++ ['-'] ++ number) :
    (b.splice front.length (front.length + 1) []).1 = .ofChars (front ++ number) := by
  have hsplice := splice_parts h []
  rwa [List.append_nil] at hsplice

theorem toggleSign_signed (hzero : s.buffer.isZero = false)
    (h : s.buffer.EndsWith (front ++ ['-']) number) (hsign : signFits front = true) :
    s.toggleSign = s.withoutSign front number := by
  have hsigned := (isSigned_iff h.chars).mpr ⟨front, rfl, hsign⟩
  unfold isSigned at hsigned
  rw [toggleSign, if_neg (Bool.eq_false_iff.mp hzero), h.trailingNumber?]
  dsimp only
  rw [if_pos hsigned, List.length_append, List.length_singleton, Nat.add_sub_cancel,
    splice_sign h.chars]
  rfl

theorem edit_signToggle (hoverlay : s.overlay = none) : s.edit .signToggle = s.toggleSign := by
  rw [edit, hoverlay]
  rfl

/-- A press that is accepted toggles the sign, unless that breaks the shape of the entry. -/
theorem apply_signToggle (haccepts : s.layout.accepts s.mode .signToggle = true)
    (hoverlay : s.overlay = none) (hformed : s.buffer.isWellFormed = true) :
    s.apply .signToggle = if s.toggleSign.buffer.isWellFormed then s.toggleSign else s := by
  rw [apply, if_pos haccepts, edit_signToggle hoverlay]
  dsimp only
  rw [hformed, Bool.true_and]
  cases s.toggleSign.buffer.isWellFormed <;> rfl

/-! ## Two presses -/

theorem isZero_ofChars {text : List Char} {c : Char} (hc : c ∈ text) (hne : c ≠ '0') :
    (Buffer.ofChars text).isZero = false := by
  rw [Buffer.isZero, Buffer.chars_ofChars (List.ne_nil_of_mem hc)]
  refine beq_eq_false_iff_ne.mpr ?_
  rintro rfl
  exact hne (List.mem_singleton.mp hc)

/-- A press leaves the length as it is or gives it that of the toggled entry. -/
theorem apply_signToggle_ne {t : Editor} (hoverlay : t.overlay = none)
    (hsame : t.buffer.length ≠ s.buffer.length)
    (htoggled : t.toggleSign.buffer.length ≠ s.buffer.length) : t.apply .signToggle ≠ s := by
  rintro rfl
  rcases apply_eq_or t .signToggle with h | h
  · rw [h] at hsame
    exact hsame rfl
  · rw [h, edit_signToggle hoverlay] at htoggled
    exact htoggled rfl

section Twice

variable (haccepts : s.layout.accepts s.mode .signToggle = true) (hoverlay : s.overlay = none)
  (hformed : s.buffer.isWellFormed = true) (hzero : s.buffer.isZero = false)

include haccepts hoverlay hformed hzero

omit haccepts hoverlay hzero in
theorem isWellFormed_withSign (h : s.buffer.EndsWith front number)
    (hunsigned : isSigned s.buffer front.length = false) :
    (s.withSign front number).buffer.isWellFormed = true := by
  refine formed_ofChars (formed_insertSign h hformed ?_)
  rw [← isSigned_iff h.chars, hunsigned]
  exact Bool.false_ne_true

/-- A number without a sign is given one. -/
theorem apply_unsigned (h : s.buffer.EndsWith front number)
    (hunsigned : isSigned s.buffer front.length = false) :
    s.apply .signToggle = s.withSign front number := by
  rw [apply_signToggle haccepts hoverlay hformed, toggleSign_unsigned hzero h hunsigned,
    if_pos (isWellFormed_withSign hformed h hunsigned)]

/-- A number that is given a sign loses it again if the minus is taken for a sign. Otherwise it is
given another one. -/
theorem twice_unsigned (h : s.buffer.EndsWith front number)
    (hunsigned : isSigned s.buffer front.length = false) :
    (s.apply .signToggle).apply .signToggle = s ↔ signFits front = true := by
  have hchars : (s.withSign front number).buffer.chars = front ++ ['-'] ++ number := by
    rw [withSign, Buffer.chars_ofChars (by simp), List.append_assoc]
    rfl
  have hformed' := isWellFormed_withSign hformed h hunsigned
  have hzero' : (s.withSign front number).buffer.isZero = false :=
    isZero_ofChars (c := '-') (by simp) (by decide)
  have hends : (s.withSign front number).buffer.EndsWith (front ++ ['-']) number := by
    refine h.behind hchars fun c hc => ?_
    rw [List.getLast?_concat] at hc
    obtain rfl := Option.some.inj hc
    rfl
  rw [apply_unsigned haccepts hoverlay hformed hzero h hunsigned]
  constructor
  · intro hback
    by_contra hsign
    have hunsigned' :
        isSigned (s.withSign front number).buffer (front ++ ['-']).length = false := by
      rw [Bool.eq_false_iff, ne_eq, isSigned_iff hends.chars]
      rintro ⟨back, heq, hback⟩
      obtain rfl := List.append_cancel_right heq
      exact hsign hback
    have htoggle := toggleSign_unsigned hzero' hends hunsigned'
    refine apply_signToggle_ne (t := s.withSign front number) hoverlay ?_ ?_ hback
    · rw [length_withSign, h.length]
      omega
    · rw [htoggle, length_withSign, List.length_append, h.length]
      omega
  · intro hsign
    have htoggle := toggleSign_signed hzero' hends hsign
    rw [withoutSign_withSign h.chars] at htoggle
    rw [apply_signToggle (s := s.withSign front number) haccepts hoverlay hformed', htoggle,
      if_pos hformed]

omit hzero in
/-- The press after a sign is out puts it in again, unless zero is left or another sign comes to
light. -/
theorem apply_withoutSign (h : s.buffer.EndsWith (back ++ ['-']) number)
    (hsign : signFits back = true)
    (hbare : (s.withoutSign back number).buffer.isWellFormed = true) :
    (s.withoutSign back number).apply .signToggle = s ↔
      (s.withoutSign back number).buffer.isZero = false ∧
      isSigned (s.withoutSign back number).buffer back.length = false ∧
      s.cursor ≠ back.length := by
  have hchars : (s.withoutSign back number).buffer.chars = back ++ number :=
    Buffer.chars_ofChars (List.append_ne_nil_of_right_ne_nil back h.ne_nil)
  have hends : (s.withoutSign back number).buffer.EndsWith back number :=
    h.behind hchars (isNumberChar_of_signFits hsign)
  have hlength : (s.withoutSign back number).buffer.length ≠ s.buffer.length := by
    rw [length_withoutSign s back h.ne_nil, h.length, List.length_append, List.length_singleton]
    omega
  cases hzero : (s.withoutSign back number).buffer.isZero with
  | true =>
    -- Zero has no sign.
    have htoggle : (s.withoutSign back number).toggleSign = s.withoutSign back number := by
      rw [toggleSign, if_pos hzero]
    refine iff_of_false (apply_signToggle_ne hoverlay hlength ?_) (by simp)
    rwa [htoggle]
  | false =>
    cases hsigned : isSigned (s.withoutSign back number).buffer back.length with
    | true =>
      -- The minus before that was a sign too, and is taken out next.
      refine iff_of_false (apply_signToggle_ne hoverlay hlength ?_) (by simp)
      obtain ⟨front, rfl, hsign'⟩ := (isSigned_iff hchars).mp hsigned
      rw [toggleSign_signed hzero hends hsign', length_withoutSign _ _ h.ne_nil, h.length]
      simp only [List.length_append, List.length_singleton]
      omega
    | false =>
      have hback : s.buffer.chars = back ++ '-' :: number := by
        rw [h.chars, List.append_assoc]
        rfl
      have hagain :
          ((s.withoutSign back number).withSign back number).buffer.isWellFormed = true := by
        rw [buffer_withSign_withoutSign hback, hformed]
      rw [apply_signToggle (s := s.withoutSign back number) haccepts hoverlay hbare,
        toggleSign_unsigned hzero hends hsigned, if_pos hagain, withSign_withoutSign hback]
      simp

/-- If the sign of a number may be taken out, the next press decides. -/
theorem twice_signed (h : s.buffer.EndsWith (back ++ ['-']) number) (hsign : signFits back = true) :
    (s.apply .signToggle).apply .signToggle = s ↔
      ((s.withoutSign back number).buffer.isWellFormed = true →
        (s.withoutSign back number).buffer.isZero = false ∧
        isSigned (s.withoutSign back number).buffer back.length = false ∧
        s.cursor ≠ back.length) := by
  have hpress : s.apply .signToggle =
      if (s.withoutSign back number).buffer.isWellFormed then s.withoutSign back number
      else s := by
    rw [apply_signToggle haccepts hoverlay hformed, toggleSign_signed hzero h hsign]
  by_cases hbare : (s.withoutSign back number).buffer.isWellFormed = true
  · rw [hpress, if_pos hbare, forall_prop_of_true hbare]
    exact apply_withoutSign haccepts hoverlay hformed h hsign hbare
  · rw [hpress, if_neg hbare, hpress, if_neg hbare]
    exact ⟨fun _ hcontra => absurd hcontra hbare, fun _ => rfl⟩

end Twice

/-! ## Where the key is undone -/

/-- What it takes for the sign key to be undone when it is pressed again. If the number has no sign,
a minus before it has to be one. If it has one that may be taken out, what is left has to be other
than zero and without another sign, and the cursor must not stand just before the sign. -/
def SignReturns (s : Editor) : Prop :=
  ∀ start, s.buffer.trailingNumber? = some start →
    if isSigned s.buffer start then
      let bare := (s.buffer.splice (start - 1) start []).1
      bare.isWellFormed = true →
        bare.isZero = false ∧ isSigned bare (start - 1) = false ∧ s.cursor ≠ start - 1
    else isSignPosition s.buffer start = true

/-- **Where the sign key undoes itself.** In an entry that can be keyed in, other than zero, two
presses of the key lead back to the same editor exactly under these conditions. -/
theorem signToggle_twice_iff {operations : List Operation} (hs : initial.run operations = s)
    (hoverlay : s.overlay = none) (haccepts : s.layout.accepts s.mode .signToggle = true)
    (hzero : s.buffer.isZero = false) :
    (s.apply .signToggle).apply .signToggle = s ↔ s.SignReturns := by
  have hformed : s.buffer.isWellFormed = true := hs ▸ isWellFormed_run rfl operations
  unfold SignReturns
  cases hnumber : s.buffer.trailingNumber? with
  | none =>
    have hpress : s.apply .signToggle = s := by
      have htoggle : s.toggleSign = s := by
        rw [toggleSign, hnumber]
        exact ite_self s
      rw [apply_signToggle haccepts hoverlay hformed, htoggle, if_pos hformed]
    rw [hpress, hpress]
    simp
  | some start =>
    obtain ⟨front, number, hends, rfl⟩ := Buffer.exists_endsWith hnumber
    simp only [Option.some.injEq, forall_eq']
    cases hsigned : isSigned s.buffer front.length with
    | false =>
      rw [if_neg Bool.false_ne_true, isSignPosition_eq hends.chars]
      exact twice_unsigned haccepts hoverlay hformed hzero hends hsigned
    | true =>
      obtain ⟨back, rfl, hsign⟩ := (isSigned_iff hends.chars).mp hsigned
      rw [if_pos rfl, List.length_append, List.length_singleton, Nat.add_sub_cancel,
        splice_sign hends.chars]
      exact twice_signed haccepts hoverlay hformed hzero hends hsign

/-- Three is subtracted with a sign of its own. -/
theorem subtracted_sign_returns :
    let s := initial.run
      [.event (.digit '5'), .event (.operator '-'), .event (.digit '3'), .event .signToggle]
    s.buffer.chars = "5--3".toList ∧ s.overlay = none ∧
      s.layout.accepts s.mode .signToggle = true ∧ s.buffer.isZero = false ∧ s.SignReturns ∧
      (s.apply .signToggle).apply .signToggle = s := by
  intro s
  have hoverlay : s.overlay = none := by decide
  have haccepts : s.layout.accepts s.mode .signToggle = true := by decide
  have hzero : s.buffer.isZero = false := by decide
  have hreturns : s.SignReturns := by
    intro start hstart
    have hnumber : s.buffer.trailingNumber? = some 3 := by decide
    obtain rfl : 3 = start := Option.some.inj (hnumber.symm.trans hstart)
    decide
  exact ⟨by decide, hoverlay, haccepts, hzero, hreturns,
    (signToggle_twice_iff rfl hoverlay haccepts hzero).mpr hreturns⟩

/-- Behind a percent sign, where a deletion has brought the number, a sign is put in twice. -/
theorem sign_behind_percent :
    let s := initial.run
      [.event (.digit '5'), .event .percent, .event (.digit '3'), .event (.delete 2 3)]
    s.buffer.chars = "5%3".toList ∧ s.overlay = none ∧
      s.layout.accepts s.mode .signToggle = true ∧ s.buffer.isZero = false ∧
      ((s.apply .signToggle).apply .signToggle).buffer.chars = "5%--3".toList ∧
      (s.apply .signToggle).apply .signToggle ≠ s := by
  decide

end Editor

end PocketCalculator
