import PocketCalculator.Host.Machine
import PocketCalculator.Proofs.Text.LineEnd

/-!
# Lines of input

A line has its inputs (`Input.readable`) or a fault that names its number (`Input.fault?`). A script is
read if no line has a fault and there is an input, and otherwise the first fault is what is wrong with it
(`ofScript_eq`). A fault is told in one line (`not_mem_text_complaint`), whatever the line had in it.
-/

namespace PocketCalculator.Host

namespace Input

/-- The inputs of a line. A line that cannot be read has none. -/
def readable (line : List Char) : List Input :=
  match ofTrimmed (Text.trim line) with
  | .ok inputs => inputs
  | .error _ => []

/-- What is wrong with the line of a number, if it cannot be read. -/
def fault? (number : Nat) (line : List Char) : Option ScriptError :=
  match ofTrimmed (Text.trim line) with
  | .ok _ => none
  | .error cause => some (.line number cause)

/-- What is wrong with some numbered lines, in order. -/
def faults (numbered : List (List Char × Nat)) : List ScriptError :=
  numbered.filterMap fun entry => fault? entry.2 entry.1

theorem faults_concat (numbered : List (List Char × Nat)) (line : List Char) (number : Nat) :
    faults (numbered ++ [(line, number)]) = faults numbered ++ (fault? number line).toList := by
  unfold faults
  rw [List.filterMap_append, List.filterMap_cons, List.filterMap_nil]
  cases fault? number line <;> rfl

theorem ofLine_eq (number : Nat) (line : List Char) :
    ofLine number line =
      match fault? number line with
      | some cause => .error cause
      | none => .ok (readable line) := by
  unfold ofLine fault? readable
  cases ofTrimmed (Text.trim line) <;> rfl

/-- It does not matter whether a return stands before the line end. -/
theorem ofLine_return (number : Nat) (line : List Char) :
    ofLine number (line ++ ['\r']) = ofLine number line := by
  unfold ofLine
  rw [Text.trim_append_blank (by decide)]

theorem readable_of_fault? {number : Nat} {line : List Char} {cause : ScriptError}
    (h : fault? number line = some cause) : readable line = [] := by
  unfold fault? at h
  unfold readable
  cases hline : ofTrimmed (Text.trim line) with
  | ok inputs =>
    rw [hline] at h
    cases h
  | error cause => rfl

/-! ## Scripts -/

theorem ofLines_eq (number : Nat) (lines : List (List Char)) :
    ofLines number lines =
      match (faults (lines.zipIdx number)).head? with
      | some cause => .error cause
      | none => .ok (lines.flatMap readable) := by
  induction lines generalizing number with
  | nil => rfl
  | cons line rest ih =>
    unfold ofLines
    rw [ofLine_eq, ih, List.zipIdx_cons]
    unfold faults
    rw [List.filterMap_cons]
    cases fault? number line with
    | some cause => rfl
    | none => cases (List.filterMap _ (rest.zipIdx (number + 1))).head? <;> rfl

/-- **What a script is read as**: the inputs of its lines, or the fault of the first line that has one. -/
theorem ofScript_eq (text : List Char) :
    ofScript text =
      match (faults ((Text.lines text).zipIdx 1)).head? with
      | some cause => .error cause
      | none =>
        if ((Text.lines text).flatMap readable).isEmpty then .error .empty
        else .ok ((Text.lines text).flatMap readable) := by
  unfold ofScript
  rw [ofLines_eq]
  cases (faults ((Text.lines text).zipIdx 1)).head? <;> rfl

/-- A script that is read is made of the inputs of all lines. -/
theorem eq_of_ofScript {text : List Char} {script : List Input} (h : ofScript text = .ok script) :
    script = (Text.lines text).flatMap readable := by
  rw [ofScript_eq] at h
  split at h
  · cases h
  · split at h
    · cases h
    · cases h
      rfl

end Input

/-! ## Complaints -/

section OneLine

variable {a b : String}

theorem not_mem_append (ha : '\n' ∉ a.toList) (hb : '\n' ∉ b.toList) : '\n' ∉ (a ++ b).toList := by
  rw [String.toList_append, List.mem_append]
  exact not_or_intro ha hb

theorem not_mem_ofList {text : List Char} (h : '\n' ∉ text) : '\n' ∉ (String.ofList text).toList := by
  rwa [String.toList_ofList]

theorem not_mem_toString (n : Nat) : '\n' ∉ (toString n).toList := by
  rw [Nat.toString_eq_repr, Nat.repr_eq_ofList_toDigits, String.toList_ofList]
  intro hmem
  exact absurd (Nat.isDigit_of_mem_toDigits (by decide) (by decide) hmem) (by decide)

end OneLine

theorem Command.not_mem_message_modeRequest {arguments : List (List Char)} {cause : Command.Error}
    (h : Command.modeRequest arguments = .error cause) (hline : ∀ w ∈ arguments, '\n' ∉ w) :
    '\n' ∉ cause.message.toList := by
  cases arguments with
  | nil =>
    cases h
    decide
  | cons name arguments =>
    dsimp only [Command.modeRequest] at h
    split at h
    · cases h
    · split at h
      · cases h
      · cases h
        exact not_mem_append (by decide) (not_mem_ofList (hline name List.mem_cons_self))

theorem Command.not_mem_message {text : List Char} {cause : Command.Error}
    (h : Command.ofText text = .error cause) (hline : '\n' ∉ text) : '\n' ∉ cause.message.toList := by
  have hwords : ∀ w ∈ Text.words text, '\n' ∉ w :=
    fun w hw hmem => hline (Text.mem_of_mem_words hw hmem)
  unfold Command.ofText at h
  split at h
  · cases h
    decide
  · next name arguments heq =>
    rw [heq] at hwords
    have hname := Text.not_mem_lowercase (hwords name List.mem_cons_self)
    split at h
    · cases hmode : Command.modeRequest arguments with
      | ok request =>
        rw [hmode] at h
        cases h
      | error cause =>
        rw [hmode] at h
        cases h
        exact not_mem_message_modeRequest hmode fun w hw => hwords w (List.mem_cons_of_mem name hw)
    all_goals cases h
    exact not_mem_append (by decide) (not_mem_ofList hname)

namespace Input

theorem mem_of_mem_after? {start text rest : List Char} (h : after? start text = some rest) {c : Char}
    (hc : c ∈ rest) : c ∈ text := by
  induction start generalizing text with
  | nil =>
    cases h
    exact hc
  | cons d start ih =>
    cases text with
    | nil => cases h
    | cons e text =>
      unfold after? at h
      split at h
      · exact List.mem_cons_of_mem e (ih h)
      · cases h

theorem not_mem_message_pressOf {label : List Char} {cause : LineError}
    (h : pressOf label = .error cause) (hline : '\n' ∉ label) : '\n' ∉ cause.message.toList := by
  unfold pressOf at h
  dsimp only at h
  split at h
  · cases h
  · cases h
    exact not_mem_append (by decide) (not_mem_ofList fun hmem => hline (Text.mem_of_mem_trim hmem))

theorem not_mem_message_keyOfLine {line : List Char} {cause : LineError}
    (h : keyOfLine line = .error cause) (hline : '\n' ∉ line) : '\n' ∉ cause.message.toList := by
  unfold keyOfLine at h
  split at h
  · cases h
  · split at h
    · cases h
    · cases h
      exact not_mem_append (by decide) (not_mem_ofList hline)

theorem map_eq_error {α β ε : Type} {f : α → β} {result : Except ε α} {cause : ε}
    (h : result.map f = .error cause) : result = .error cause := by
  cases result with
  | error e =>
    cases h
    rfl
  | ok a => cases h

theorem not_mem_message {line : List Char} {cause : LineError} (h : ofTrimmed line = .error cause)
    (hline : '\n' ∉ line) : '\n' ∉ cause.message.toList := by
  unfold ofTrimmed at h
  split at h
  · cases h
  · cases h
  · next text =>
    split at h
    · cases h
    · next heq =>
      cases h
      exact Command.not_mem_message heq (List.not_mem_of_not_mem_cons hline)
  · split at h
    · next hafter =>
      exact not_mem_message_pressOf (map_eq_error h) fun hmem => hline (mem_of_mem_after? hafter hmem)
    · split at h
      · cases h
      · exact not_mem_message_keyOfLine (map_eq_error h) hline

end Input

/-- **A complaint is one line.** -/
theorem not_mem_text_complaint {number : Nat} {line : List Char} {cause : ScriptError}
    (h : Input.fault? number line = some cause) (hline : '\n' ∉ line) :
    '\n' ∉ (Output.complaint cause).text.toList := by
  unfold Input.fault? at h
  split at h
  · cases h
  · next e he =>
    cases h
    have hmessage := Input.not_mem_message he fun hmem => hline (Text.mem_of_mem_trim hmem)
    exact not_mem_append (by decide)
      (not_mem_append (not_mem_append (not_mem_append (by decide) (not_mem_toString number)) (by decide))
        hmessage)

end PocketCalculator.Host
