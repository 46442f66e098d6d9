import PocketCalculator.Proofs.Host.Line
import PocketCalculator.Proofs.Text.Edges

/-!
# Writing scripts

How inputs are written down (`Input.Spells`): keys of characters between double quotes, the other keys by
their names in any letter case, a press by its label, a command after a colon in any ASCII letter case. A
line may have blanks around what is written on it, and lines that are blank or a comment may stand anywhere
(`Input.IsLine`, `Input.IsScript`). Inputs that have no line end in them and no label that the keypad does
not know can be written, and are read back from whatever way they were written in
(`Input.ofScript_of_isScript`).
-/

namespace PocketCalculator

/-- The names of the keys that are no characters. -/
def Key.named : List (Key × String) :=
  [(.enter, "enter"), (.enter, "return"), (.escape, "escape"), (.escape, "esc"),
    (.backspace, "backspace"), (.backspace, "back"), (.delete, "delete"), (.delete, "del"),
    (.left, "left"), (.left, "arrowleft"), (.right, "right"), (.right, "arrowright"), (.home, "home"),
    (.toEnd, "end")]

def Key.name (k : Key) : String :=
  (named.lookup k).getD ""

namespace Host

open Text (isBlank)

/-- What the commands are called, in lower case. -/
def Command.named : List (Command × String) :=
  [(.mode (.set .basic), "mode basic"), (.mode (.set .scientific), "mode scientific"),
    (.mode (.set .scientific), "mode sci"), (.mode .toggle, "mode toggle"), (.history, "history"),
    (.clearHistory, "clear-history"), (.undo, "undo"), (.redo, "redo"), (.quit, "quit"), (.quit, "exit")]

namespace Input

/-- An input that a line can hold: no line end, and no label but a trimmed one that the keypad knows. -/
def Writable : Input → Prop
  | key (.char c) => c ≠ '\n'
  | press label => Text.trim label.toList = label.toList ∧ (Action.ofLabel? label).isSome = true
  | _ => True

/-- A stretch of characters, or another input, as it is written. -/
inductive Spells : List Char → List Input → Prop
  | keys (text : List Char) : Spells ('"' :: text ++ ['"']) (text.map fun c => key (.char c))
  | named {written : List Char} {k : Key} {name : String} (hname : (k, name) ∈ Key.named)
      (h : Text.lowercase written = name.toList) : Spells written [key k]
  | press (label : String) : Spells ("press ".toList ++ label.toList) [press label]
  | command {written : List Char} {c : Command} {name : String} (hname : (c, name) ∈ Command.named)
      (h : written.map Char.toLower = name.toList) : Spells (':' :: written) [command c]

/-- Blanks that may stand around what is on a line. -/
def IsPadding (text : List Char) : Prop :=
  ∀ c ∈ text, isBlank c = true ∧ c ≠ '\n'

instance : DecidablePred IsPadding :=
  fun text => List.decidableBAll (fun c => isBlank c = true ∧ c ≠ '\n') text

/-- What a line holds. -/
inductive IsLine : List Char → List Input → Prop
  | item {before item after : List Char} {inputs : List Input} (hbefore : IsPadding before)
      (hafter : IsPadding after) (h : Spells item inputs) : IsLine (before ++ item ++ after) inputs
  | blank {line : List Char} (h : IsPadding line) : IsLine line []
  | comment {before text : List Char} (hbefore : IsPadding before) (h : '\n' ∉ text) :
      IsLine (before ++ '#' :: text) []

/-- What the lines of a text hold, in order. A return may stand before a line end, and a line end after the
last line. -/
inductive IsScript : List Char → List Input → Prop
  | last {line : List Char} {inputs : List Input} (h : IsLine line inputs) : IsScript line inputs
  | line {line text : List Char} {inputs more : List Input} (h : IsLine line inputs)
      (hmore : IsScript text more) : IsScript (line ++ '\n' :: text) (inputs ++ more)
  | lineReturn {line text : List Char} {inputs more : List Input} (h : IsLine line inputs)
      (hmore : IsScript text more) : IsScript (line ++ '\r' :: '\n' :: text) (inputs ++ more)

/-! ## Starts of lines -/

theorem after?_append (start text : List Char) : after? start (start ++ text) = some text := by
  induction start with
  | nil => rfl
  | cons c start ih => rw [List.cons_append, after?, if_pos rfl, ih]

theorem mem_of_after? {start text rest : List Char} (h : after? start text = some rest) {c : Char}
    (hc : c ∈ start) : c ∈ text := by
  induction start generalizing text with
  | nil => exact absurd hc List.not_mem_nil
  | cons d start ih =>
    cases text with
    | nil => cases h
    | cons e text =>
      unfold after? at h
      split at h
      · next heq =>
        subst heq
        rcases List.mem_cons.mp hc with rfl | hc
        · exact List.mem_cons_self
        · exact List.mem_cons_of_mem d (ih h hc)
      · cases h

/-- A line without the marks of the other kinds is a key. -/
theorem ofTrimmed_of_not_mem {line : List Char} (hne : line ≠ [])
    (h : ∀ c ∈ ['#', ':', '"', ' '], c ∉ line) : ofTrimmed line = (keyOfLine line).map ([·]) := by
  have hpress : after? "press ".toList line = none := by
    by_contra hsome
    obtain ⟨label, hlabel⟩ := Option.ne_none_iff_exists'.mp hsome
    exact h ' ' (by simp) (mem_of_after? hlabel (by simp))
  have hquoted : quoted? line = none := by
    unfold quoted?
    split
    · exact absurd List.mem_cons_self (h '"' (by simp))
    · rfl
  unfold ofTrimmed
  split
  · exact absurd rfl hne
  · exact absurd List.mem_cons_self (h '#' (by simp))
  · exact absurd List.mem_cons_self (h ':' (by simp))
  · rw [hpress]
    dsimp only
    rw [hquoted]

/-! ## Keys -/

theorem ofTrimmed_quoted (text : List Char) :
    ofTrimmed ('"' :: text ++ ['"']) = .ok (text.map fun c => key (.char c)) := by
  have hpress : after? "press ".toList ('"' :: text ++ ['"']) = none := rfl
  have hquoted : quoted? ('"' :: text ++ ['"']) = some text := by
    rw [List.cons_append, quoted?, List.getLast?_concat, if_pos rfl, List.dropLast_concat]
  rw [ofTrimmed, hpress]
  · dsimp only
    rw [hquoted]
  all_goals simp

/-- The names of keys are in small letters, and longer than what one character can have as its lower
case. -/
theorem keyName_plain {k : Key} {name : String} (h : (k, name) ∈ Key.named) :
    keyOfName? name.toList = some k ∧ Text.lowercase name.toList = name.toList ∧
      name.toList.all Char.isLower = true ∧ 2 < name.toList.length := by
  have hall : ∀ entry ∈ Key.named, keyOfName? entry.2.toList = some entry.1 ∧
      Text.lowercase entry.2.toList = entry.2.toList ∧
        entry.2.toList.all Char.isLower = true ∧ 2 < entry.2.toList.length := by decide +kernel
  exact hall (k, name) h

section Named

variable {written : List Char} {k : Key} {name : String}

theorem not_mem_of_lowercase (hname : (k, name) ∈ Key.named) (h : Text.lowercase written = name.toList)
    {c : Char} (hc : c.isLower = false) (hkept : isBlank c = true ∨ c.toNat < 0x80 ∧ c.toLower = c) :
    c ∉ written := by
  intro hmem
  have hlower : c.isLower = true :=
    List.all_eq_true.mp (keyName_plain hname).2.2.1 c (h ▸ Text.mem_lowercase hmem hkept)
  rw [hc] at hlower
  cases hlower

theorem isLower_of_isBlank {c : Char} (h : isBlank c = true) : c.isLower = false := by
  by_contra hlower
  rw [Bool.not_eq_false] at hlower
  simp only [Char.isLower, UInt32.le_iff_toNat_le, Bool.and_eq_true, decide_eq_true_eq] at hlower
  have hcode := Text.toNat_le_of_isBlank h (Nat.lt_of_le_of_lt hlower.2 (by decide))
  exact absurd (Nat.le_trans hlower.1 hcode) (by decide)

theorem keyOfLine_named (hname : (k, name) ∈ Key.named) (h : Text.lowercase written = name.toList) :
    keyOfLine written = .ok (key k) := by
  obtain ⟨hread, hlower, -, hlong⟩ := keyName_plain hname
  have hkey : keyOfName? written = some k := by
    rw [← hread, keyOfName?, keyOfName?, h, hlower]
  unfold keyOfLine
  split
  · next c =>
    have hshort := Text.length_lowercaseAt_le [] [] c
    rw [← h, Text.lowercase, Text.lowercaseFrom, Text.lowercaseFrom, List.append_nil] at hlong
    exact absurd hlong (Nat.not_lt.mpr hshort)
  · rw [hkey]

theorem ofTrimmed_named (hname : (k, name) ∈ Key.named) (h : Text.lowercase written = name.toList) :
    ofTrimmed written = .ok [key k] := by
  have hne : written ≠ [] := by
    rintro rfl
    have hlong := (keyName_plain hname).2.2.2
    rw [← h] at hlong
    exact absurd hlong (by decide)
  rw [ofTrimmed_of_not_mem hne, keyOfLine_named hname h]
  · rfl
  intro c hc
  have hmark : c.isLower = false ∧ (isBlank c = true ∨ c.toNat < 0x80 ∧ c.toLower = c) := by
    simp only [List.mem_cons, List.not_mem_nil, or_false] at hc
    rcases hc with rfl | rfl | rfl | rfl <;> decide
  exact not_mem_of_lowercase hname h hmark.1 hmark.2

end Named

/-! ## Presses -/

theorem eq_of_canonicalLabel {label : List Char} {c : Char} (h : Glyph.canonicalLabel label = [c]) :
    ∃ d, label = [d] ∧ Glyph.canonical d = c := by
  unfold Glyph.canonicalLabel at h
  split at h
  · next d => exact ⟨d, rfl, List.singleton_injective h⟩
  · next hlong => exact absurd h (hlong c)

/-- A label that the keypad knows is of one line, and not empty. -/
theorem label_plain {label : String} (h : (Action.ofLabel? label).isSome = true) :
    '\n' ∉ Text.trim label.toList ∧ Text.trim label.toList ≠ [] := by
  have hfixed : ∀ {name : String}, String.ofList (Text.trim label.toList) = name →
      '\n' ∉ name.toList ∧ name.toList ≠ [] →
        '\n' ∉ Text.trim label.toList ∧ Text.trim label.toList ≠ [] := by
    rintro name rfl hname
    rwa [String.toList_ofList] at hname
  unfold Action.ofLabel? at h
  dsimp only at h
  split at h
  -- The keys with a face of their own, then the function keys, then the single characters.
  iterate 9
    next heq => exact hfixed heq (by decide)
  split at h
  · next key hkey =>
    have hlabel : key.label = String.ofList (Text.trim label.toList) := by
      simpa using List.find?_some hkey
    exact hfixed hlabel.symm (by cases key <;> decide)
  · split at h
    · next c hc =>
      obtain ⟨d, hd, rfl⟩ := eq_of_canonicalLabel hc
      rw [hd]
      refine ⟨fun hmem => ?_, List.cons_ne_nil d []⟩
      cases List.mem_singleton.mp hmem
      cases h
    · cases h

theorem ofTrimmed_press {label : String} (htrim : Text.trim label.toList = label.toList)
    (h : (Action.ofLabel? label).isSome = true) :
    ofTrimmed ("press ".toList ++ label.toList) = .ok [press label] := by
  have hpress : pressOf label.toList = .ok (press label) := by
    unfold pressOf
    rw [htrim, String.ofList_toList]
    dsimp only
    rw [if_pos h]
  rw [ofTrimmed, after?_append]
  · dsimp only
    rw [hpress]
    rfl
  all_goals simp

end Input

/-! ## Commands -/

namespace Command

theorem modeRequest_of_map {arguments : List (List Char)} {request : ModeRequest}
    (h : modeRequest (arguments.map (List.map Char.toLower)) = .ok request) :
    modeRequest arguments = .ok request := by
  cases arguments with
  | nil => cases h
  | cons name arguments =>
    have hsame : Layout.sameLetters (name.map Char.toLower) = Layout.sameLetters name := by
      funext other
      unfold Layout.sameLetters
      rw [List.map_map, Text.toLower_comp_toLower]
    have hknown : Mode.ofName? (String.ofList (name.map Char.toLower)) =
        Mode.ofName? (String.ofList name) := by
      unfold Mode.ofName?
      rw [String.toList_ofList, String.toList_ofList, Text.trim_map Text.isBlank_toLower, List.map_map,
        Text.toLower_comp_toLower]
    rw [List.map_cons, modeRequest, hsame, hknown] at h
    rw [modeRequest]
    split
    · next htoggle =>
      rw [if_pos htoggle] at h
      exact h
    · next htoggle =>
      rw [if_neg htoggle] at h
      split
      · next known hmode =>
        rw [hmode] at h
        exact h
      · next hmode =>
        rw [hmode] at h
        cases h

/-- A command is the same in any case of ASCII letters. -/
theorem ofText_of_map {text : List Char} {command : Command} (hascii : ∀ c ∈ text, c.toNat < 0x80)
    (h : ofText (text.map Char.toLower) = .ok command) : ofText text = .ok command := by
  unfold ofText at h ⊢
  rw [Text.words_map Text.isBlank_toLower] at h
  cases hwords : Text.words text with
  | nil =>
    rw [hwords] at h
    cases h
  | cons name arguments =>
    have hname : ∀ c ∈ name, c.toNat < 0x80 := fun c hc =>
      hascii c (Text.mem_of_mem_words (hwords ▸ List.mem_cons_self) hc)
    rw [hwords, List.map_cons] at h
    dsimp only at h ⊢
    rw [Text.lowercase_map_toLower hname] at h
    -- Only the mode looks at the words after the name.
    split at h
    · cases hmode : modeRequest (arguments.map (List.map Char.toLower)) with
      | ok request =>
        rw [hmode] at h
        rw [modeRequest_of_map hmode]
        exact h
      | error cause =>
        rw [hmode] at h
        cases h
    all_goals exact h

/-- What a command is called is trimmed ASCII text of one line, and read as the command. -/
theorem name_plain {command : Command} {name : String} (h : (command, name) ∈ named) :
    ofText name.toList = .ok command ∧ Text.trim name.toList = name.toList ∧
      name.toList.all (·.toNat < 0x80) = true ∧ '\n' ∉ name.toList ∧
        name.toList.map Char.toLower = name.toList := by
  have hall : ∀ entry ∈ named, ofText entry.2.toList = .ok entry.1 ∧
      Text.trim entry.2.toList = entry.2.toList ∧ entry.2.toList.all (·.toNat < 0x80) = true ∧
        '\n' ∉ entry.2.toList ∧ entry.2.toList.map Char.toLower = entry.2.toList := by decide +kernel
  exact hall (command, name) h

section Written

variable {command : Command} {written : List Char} {name : String}

theorem ofText_named (hname : (command, name) ∈ named) (h : written.map Char.toLower = name.toList) :
    ofText written = .ok command := by
  obtain ⟨hread, -, hascii, -⟩ := name_plain hname
  rw [← h] at hread hascii
  refine ofText_of_map ?_ hread
  intro c hc
  have hlower := List.all_eq_true.mp hascii c.toLower (List.mem_map_of_mem hc)
  exact Text.toNat_toLower_lt_iff.mp (of_decide_eq_true hlower)

theorem trim_named (hname : (command, name) ∈ named) (h : written.map Char.toLower = name.toList) :
    Text.trim written = written := by
  obtain ⟨-, htrim, -⟩ := name_plain hname
  rw [← h] at htrim
  exact (Text.trim_map_eq_self_iff Text.isBlank_toLower).mp htrim

theorem not_mem_named (hname : (command, name) ∈ named) (h : written.map Char.toLower = name.toList) :
    '\n' ∉ written := by
  obtain ⟨-, -, -, hline, -⟩ := name_plain hname
  rw [← h] at hline
  exact fun hmem => hline (List.mem_map_of_mem hmem)

end Written

end Command

namespace Input

variable {line item text : List Char} {inputs more : List Input}

/-! ## Lines -/

/-- **Each kind of line is recognised as what it is.** -/
theorem ofTrimmed_of_spells (h : Spells item inputs) (hw : ∀ i ∈ inputs, i.Writable) :
    ofTrimmed item = .ok inputs := by
  cases h with
  | keys text => exact ofTrimmed_quoted text
  | named hname h => exact ofTrimmed_named hname h
  | press label =>
    obtain ⟨htrim, hknown⟩ := hw (press label) List.mem_cons_self
    exact ofTrimmed_press htrim hknown
  | command hname h =>
    rw [ofTrimmed, Command.ofText_named hname h]

/-- What is written has no blank at its ends. -/
theorem trim_of_spells (h : Spells item inputs) (hw : ∀ i ∈ inputs, i.Writable) :
    Text.trim item = item := by
  refine Text.trim_eq_self_iff.mpr ?_
  cases h with
  | keys text =>
    constructor
    · rintro c ⟨⟩
      decide
    · intro c hlast
      rw [List.getLast?_concat] at hlast
      cases hlast
      decide
  | named hname h =>
    have hnot : ∀ c ∈ item, isBlank c = false := by
      intro c hmem
      by_contra hblank
      have hblank := eq_true_of_ne_false hblank
      exact not_mem_of_lowercase hname h (isLower_of_isBlank hblank) (.inl hblank) hmem
    exact ⟨fun c hc => hnot c (List.mem_of_head? hc), fun c hc => hnot c (List.mem_of_getLast? hc)⟩
  | press label =>
    obtain ⟨htrim, hknown⟩ := hw (press label) List.mem_cons_self
    have hne := (label_plain hknown).2
    rw [htrim] at hne
    constructor
    · rintro c ⟨⟩
      decide
    · intro c hlast
      rw [List.getLast?_append_of_ne_nil _ hne] at hlast
      exact (Text.trim_eq_self_iff.mp htrim).2 c hlast
  | @command written c name hname h =>
    constructor
    · rintro c ⟨⟩
      decide
    · intro c hlast
      rw [List.getLast?_cons] at hlast
      cases hwritten : written.getLast? with
      | none =>
        rw [hwritten] at hlast
        cases hlast
        decide
      | some d =>
        rw [hwritten] at hlast
        cases hlast
        exact (Text.trim_eq_self_iff.mp (Command.trim_named hname h)).2 _ hwritten

theorem not_mem_of_spells (h : Spells item inputs) (hw : ∀ i ∈ inputs, i.Writable) : '\n' ∉ item := by
  cases h with
  | keys text =>
    have htext : '\n' ∉ text := fun hmem => hw (key (.char '\n')) (List.mem_map_of_mem hmem) rfl
    simpa using htext
  | named hname h => exact not_mem_of_lowercase hname h (by decide) (.inl (by decide))
  | press label =>
    obtain ⟨htrim, hknown⟩ := hw (press label) List.mem_cons_self
    have hlabel := (label_plain hknown).1
    rw [htrim] at hlabel
    simpa using hlabel
  | command hname h =>
    exact List.not_mem_cons_of_ne_of_not_mem (by decide) (Command.not_mem_named hname h)

/-- A line is read as what it holds, whatever stands around that. -/
theorem ofLine_of_isLine (number : Nat) (h : IsLine line inputs) (hw : ∀ i ∈ inputs, i.Writable) :
    ofLine number line = .ok inputs := by
  unfold ofLine
  cases h with
  | item hbefore hafter h =>
    rw [Text.trim_between (fun c hc => (hbefore c hc).1) (fun c hc => (hafter c hc).1),
      trim_of_spells h hw, ofTrimmed_of_spells h hw]
  | blank h =>
    rw [Text.trim_of_blank fun c hc => (h c hc).1]
    rfl
  | comment hbefore h =>
    rw [Text.trim_append_left fun c hc => (hbefore c hc).1, Text.trim_cons (by decide)]
    rfl

theorem not_mem_of_isLine (h : IsLine line inputs) (hw : ∀ i ∈ inputs, i.Writable) : '\n' ∉ line := by
  have hpadding : ∀ {text : List Char}, IsPadding text → '\n' ∉ text :=
    fun htext hmem => (htext '\n' hmem).2 rfl
  cases h with
  | item hbefore hafter h =>
    simp only [List.mem_append, not_or]
    exact ⟨⟨hpadding hbefore, not_mem_of_spells h hw⟩, hpadding hafter⟩
  | blank h => exact hpadding h
  | comment hbefore h =>
    simp only [List.mem_append, List.mem_cons, not_or]
    exact ⟨hpadding hbefore, by decide, h⟩

/-! ## Scripts -/

theorem ofLines_cons {number : Nat} {first : List Char} {rest : List (List Char)}
    (hfirst : ofLine number first = .ok inputs) (hrest : ofLines (number + 1) rest = .ok more) :
    ofLines number (first :: rest) = .ok (inputs ++ more) := by
  rw [ofLines, hfirst, hrest]
  rfl

/-- The lines of a script are read one after the other, whatever number the first one has. -/
theorem ofLines_of_isScript (h : IsScript text inputs) (hw : ∀ i ∈ inputs, i.Writable) (number : Nat) :
    ofLines number (Text.lines text) = .ok inputs := by
  induction h generalizing number with
  | last h =>
    have hline := ofLine_of_isLine number h hw
    rw [Text.lines_of_not_mem (not_mem_of_isLine h hw)]
    split
    · next hempty =>
      rw [List.isEmpty_iff.mp hempty] at hline
      exact hline
    · have hlines := ofLines_cons hline (ofLines.eq_1 (number + 1))
      rwa [List.append_nil] at hlines
  | @line line text inputs more h hmore ih =>
    have hinputs : ∀ i ∈ inputs, i.Writable := fun i hi => hw i (List.mem_append_left more hi)
    rw [Text.lines_cons (not_mem_of_isLine h hinputs)]
    exact ofLines_cons (ofLine_of_isLine number h hinputs)
      (ih (fun i hi => hw i (List.mem_append_right inputs hi)) (number + 1))
  | @lineReturn line text inputs more h hmore ih =>
    have hinputs : ∀ i ∈ inputs, i.Writable := fun i hi => hw i (List.mem_append_left more hi)
    have hline : '\n' ∉ line ++ ['\r'] := by
      simp only [List.mem_append, List.mem_singleton, not_or]
      exact ⟨not_mem_of_isLine h hinputs, by decide⟩
    have hread : ofLine number (line ++ ['\r']) = .ok inputs := by
      rw [ofLine_return, ofLine_of_isLine number h hinputs]
    rw [List.append_cons, Text.lines_cons hline]
    exact ofLines_cons hread (ih (fun i hi => hw i (List.mem_append_right inputs hi)) (number + 1))

/-- An input as the tables have it. -/
def written : Input → List Char
  | key (.char c) => ['"', c, '"']
  | key k => k.name.toList
  | press label => "press ".toList ++ label.toList
  | command c => ':' :: c.text.toList

/-- The script with every input on a line of its own. -/
def writtenLines : List Input → List Char
  | [] => []
  | i :: rest => i.written ++ '\n' :: writtenLines rest

theorem spells_written (i : Input) : Spells i.written [i] := by
  cases i with
  | key k =>
    have hnamed : ∀ {k : Key}, (k, k.name) ∈ Key.named → Spells k.name.toList [key k] :=
      fun hname => .named hname (keyName_plain hname).2.1
    cases k with
    | char c => exact .keys [c]
    | _ => exact hnamed (by decide)
  | press label => exact .press label
  | command c =>
    have hname : (c, c.text) ∈ Command.named := by
      rcases c with ((_ | _) | _) | _ <;> decide
    exact .command hname (Command.name_plain hname).2.2.2.2

theorem isScript_writtenLines (inputs : List Input) : IsScript (writtenLines inputs) inputs := by
  have hnone : IsPadding [] := fun c hc => absurd hc List.not_mem_nil
  induction inputs with
  | nil => exact .last (.blank hnone)
  | cons i rest ih =>
    have hline : IsLine i.written [i] := by
      have hitem := IsLine.item hnone hnone (spells_written i)
      rwa [List.nil_append, List.append_nil] at hitem
    exact .line hline ih

/-- **Whatever can be written is read back**, in whichever way it was written. -/
theorem ofScript_of_isScript (hne : inputs ≠ []) (hw : ∀ i ∈ inputs, i.Writable) :
    (∃ text, IsScript text inputs) ∧ ∀ text, IsScript text inputs → ofScript text = .ok inputs := by
  refine ⟨⟨writtenLines inputs, isScript_writtenLines inputs⟩, ?_⟩
  intro text h
  have hempty : ¬inputs.isEmpty = true := fun h => hne (List.isEmpty_iff.mp h)
  unfold ofScript
  rw [ofLines_of_isScript h hw 1]
  exact if_neg hempty

/-- The marks of all kinds of lines as keys, then an input of each other kind. -/
def markedInputs : List Input :=
  [key (.char '"'), key (.char '#'), key (.char ':'), key (.char '\r'), key (.char '÷'), key .backspace,
    press "+/−", command (.mode (.set .scientific))]

def markedText : List Char :=
  "\t# marks\r\n  \"\"#:\r\"\t\n\n\"÷\"\nBac\u212A\r\npress +/−\n:Mode SCI".toList

theorem ofScript_markedText :
    markedInputs ≠ [] ∧ (∀ i ∈ markedInputs, i.Writable) ∧ IsScript markedText markedInputs ∧
      ofScript markedText = .ok markedInputs := by
  have hne : markedInputs ≠ [] := List.cons_ne_nil _ _
  have hw : ∀ i ∈ markedInputs, i.Writable := by
    simp only [markedInputs, List.forall_mem_cons, List.not_mem_nil, false_imp_iff, implies_true, Writable]
    decide
  have hnone : IsPadding [] := by decide
  have hcomment : IsLine ("\t".toList ++ '#' :: " marks".toList) [] := .comment (by decide) (by decide)
  have hmarks : IsLine ("  ".toList ++ ('"' :: "\"#:\r".toList ++ ['"']) ++ "\t".toList)
      ("\"#:\r".toList.map fun c => key (.char c)) := .item (by decide) (by decide) (.keys _)
  have hsign : IsLine ([] ++ ('"' :: ['÷'] ++ ['"']) ++ []) [key (.char '÷')] :=
    .item hnone hnone (.keys ['÷'])
  have hback : IsLine ([] ++ "Bac\u212A".toList ++ []) [key .backspace] :=
    .item hnone hnone (.named (show (_, "back") ∈ Key.named by decide) (by decide +kernel))
  have hpress : IsLine ([] ++ ("press ".toList ++ "+/−".toList) ++ []) [press "+/−"] :=
    .item hnone hnone (.press "+/−")
  have hmode : IsLine ([] ++ (':' :: "Mode SCI".toList) ++ []) [command (.mode (.set .scientific))] :=
    .item hnone hnone (.command (show (_, "mode sci") ∈ Command.named by decide) (by decide))
  have hscript : IsScript markedText markedInputs :=
    .lineReturn hcomment (.line hmarks (.line (.blank hnone) (.line hsign (.lineReturn hback
      (.line hpress (.last hmode))))))
  exact ⟨hne, hw, hscript, (ofScript_of_isScript hne hw).2 markedText hscript⟩

end Input

end Host

end PocketCalculator
