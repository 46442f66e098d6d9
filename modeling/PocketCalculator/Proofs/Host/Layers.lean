import PocketCalculator.Proofs.Host.Configuration

/-!
# The layers of a configuration

For each setting one value counts: that of its flag, else the entry of the file, else the default. The
settings are read from these values in a fixed order (`choices`), each by its own reading (`Meant`). A
configuration is answered exactly if all of them can be read, and otherwise by the error of the first that
cannot (`Decides`, which is carried through the readings one by one). Of the file only the entries without
a flag over them are looked at.
-/

namespace PocketCalculator.Settings

variable {α β : Type} {s : Setting α} {value : Value}

/-- A setting as a configuration has it: its key, the value that counts, and whether that means
anything. -/
structure Choice where
  key : String
  value : Value
  meant : Bool
  deriving DecidableEq

def Setting.choice (s : Setting α) (value : Value) : Choice :=
  ⟨s.key, value, (s.read value).isSome⟩

def Choice.error (choice : Choice) : Error :=
  .invalidValue choice.key choice.value.display

/-- The answer is what `Means` says if there is such a thing, and the error of the first choice that means
nothing otherwise. -/
structure Decides (choices : List Choice) (Means : α → Prop) (answer : Except Error α) : Prop where
  ok : ∀ a, answer = .ok a ↔ Means a
  refused : ∀ error, answer = .error error ↔
    ∃ choice, choices.find? (fun choice => !choice.meant) = some choice ∧ error = choice.error

theorem Decides.congr {choices : List Choice} {Means Means' : α → Prop} {answer : Except Error α}
    (h : Decides choices Means answer) (hmeans : ∀ a, Means' a ↔ Means a) :
    Decides choices Means' answer where
  ok a := (h.ok a).trans (hmeans a).symm
  refused := h.refused

theorem decides_ok (a : α) : Decides [] (· = a) (.ok a) where
  ok b := by
    rw [Except.ok.injEq]
    exact eq_comm
  refused error := by simp

/-- A setting is read before the choices that follow. -/
theorem Decides.bind {choices : List Choice} {Means : α → β → Prop} {next : α → Except Error β}
    (h : ∀ a, s.read value = some a → Decides choices (Means a) (next a)) :
    Decides (s.choice value :: choices) (fun b => ∃ a, s.read value = some a ∧ Means a b)
      (s.answer value >>= next) := by
  cases hread : s.read value with
  | none =>
    have hanswer : s.answer value >>= next = .error (s.choice value).error := by
      rw [Setting.answer, hread]
      rfl
    have hmeant : (s.choice value).meant = false := by
      rw [Setting.choice, hread]
      rfl
    rw [hanswer]
    constructor
    · intro b
      simp
    · intro error
      rw [List.find?_cons_of_pos (by rw [hmeant]; rfl), Except.error.injEq]
      simp [eq_comm]
  | some a =>
    have hanswer : s.answer value >>= next = next a := by
      rw [Setting.answer_of_read hread]
      rfl
    have hmeant : (s.choice value).meant = true := by
      rw [Setting.choice, hread]
      rfl
    obtain ⟨hok, hrefused⟩ := h a hread
    rw [hanswer]
    constructor
    · intro b
      simpa using hok b
    · intro error
      rw [List.find?_cons_of_neg (by rw [hmeant]; decide)]
      exact hrefused error

end PocketCalculator.Settings

namespace PocketCalculator.Host

open Settings

variable {t : Table} {mode : Option Mode} {width : Option Nat}

/-! ## What is read, and in which order -/

/-- The settings of a configuration in the order in which they are read. -/
def choices (t : Table) (mode : Option Mode) (width : Option Nat) : List Choice :=
  [Setting.startMode.choice (Setting.startMode.effective t (mode.map modeOverride)),
    Setting.layout.choice (Setting.layout.effective t none),
    Setting.displayWidth.choice (Setting.displayWidth.effective t (width.map widthOverride)),
    Setting.historyLimit.choice (Setting.historyLimit.effective t none),
    Setting.undoLimit.choice (Setting.undoLimit.effective t none)]

/-- Each preference is what the value that counts for it means. -/
structure Meant (t : Table) (mode : Option Mode) (width : Option Nat) (p : Preferences) : Prop where
  startMode : Setting.startMode.read (Setting.startMode.effective t (mode.map modeOverride)) =
    some p.startMode
  layout : Setting.layout.read (Setting.layout.effective t none) = some p.layout
  displayWidth : Setting.displayWidth.read
    (Setting.displayWidth.effective t (width.map widthOverride)) = some p.displayWidth
  historyLimit : Setting.historyLimit.read (Setting.historyLimit.effective t none) =
    some p.historyLimit
  undoLimit : Setting.undoLimit.read (Setting.undoLimit.effective t none) = some p.undoLimit

theorem Meant.one_le_displayWidth {p : Preferences} (h : Meant t mode width p) :
    1 ≤ p.displayWidth :=
  of_decide_eq_true (Option.filter_eq_some_iff.mp h.displayWidth).2

/-- What is read one after the other. -/
theorem meant_iff {p : Preferences} : Meant t mode width p ↔
    ∃ startMode, Setting.startMode.read (Setting.startMode.effective t (mode.map modeOverride)) =
      some startMode ∧
    ∃ layout, Setting.layout.read (Setting.layout.effective t none) = some layout ∧
    ∃ displayWidth, Setting.displayWidth.read
      (Setting.displayWidth.effective t (width.map widthOverride)) = some displayWidth ∧
    ∃ historyLimit, Setting.historyLimit.read (Setting.historyLimit.effective t none) =
      some historyLimit ∧
    ∃ undoLimit, Setting.undoLimit.read (Setting.undoLimit.effective t none) = some undoLimit ∧
      p = { startMode, displayWidth, historyLimit, undoLimit, layout } := by
  constructor
  · intro h
    exact ⟨_, h.startMode, _, h.layout, _, h.displayWidth, _, h.historyLimit, _, h.undoLimit, rfl⟩
  · rintro ⟨_, hmode, _, hlayout, _, hwidth, _, hhistory, _, hundo, rfl⟩
    exact ⟨hmode, hlayout, hwidth, hhistory, hundo⟩

theorem decides_resolve (t : Table) (mode : Option Mode) (width : Option Nat) :
    Decides (choices t mode width) (Meant t mode width) (resolve (imported t) mode width) := by
  rw [resolve_eq]
  refine Decides.congr ?_ fun p => meant_iff
  refine .bind fun startMode _ => ?_
  refine .bind fun layout _ => ?_
  refine .bind fun displayWidth _ => ?_
  refine .bind fun historyLimit _ => ?_
  refine .bind fun undoLimit _ => ?_
  exact decides_ok _

/-! ## Entries with a flag over them -/

/-- A flag is over the entry of this key. -/
def Shadowed (mode : Option Mode) (width : Option Nat) (key : String) : Prop :=
  (key = startModeKey ∧ mode.isSome) ∨ (key = displayWidthKey ∧ width.isSome)

/-- An entry counts only where no flag is over it. -/
theorem effective_congr {α : Type} (s : Setting α) {t' : Table} {flag : Option Value}
    (h : flag = none → t'.get? s.key = t.get? s.key) : s.effective t' flag = s.effective t flag := by
  cases flag with
  | none => rw [Setting.effective, h rfl, Setting.effective]
  | some value => rfl

theorem resolve_congr {t' : Table}
    (h : ∀ key, ¬ Shadowed mode width key → t'.get? key = t.get? key) :
    resolve (imported t') mode width = resolve (imported t) mode width := by
  have hmode : mode.map modeOverride = none → t'.get? startModeKey = t.get? startModeKey := by
    intro hnone
    rw [Option.map_eq_none_iff] at hnone
    refine h _ ?_
    rintro (⟨-, hgiven⟩ | ⟨hkey, -⟩)
    · rw [hnone] at hgiven
      cases hgiven
    · exact absurd hkey (by decide)
  have hwidth : width.map widthOverride = none →
      t'.get? displayWidthKey = t.get? displayWidthKey := by
    intro hnone
    rw [Option.map_eq_none_iff] at hnone
    refine h _ ?_
    rintro (⟨hkey, -⟩ | ⟨-, hgiven⟩)
    · exact absurd hkey (by decide)
    · rw [hnone] at hgiven
      cases hgiven
  have hother : ∀ key, key ≠ startModeKey → key ≠ displayWidthKey → t'.get? key = t.get? key := by
    intro key hne hne'
    refine h key ?_
    rintro (⟨hkey, -⟩ | ⟨hkey, -⟩)
    · exact hne hkey
    · exact hne' hkey
  rw [resolve_eq, resolve_eq, effective_congr .startMode hmode, effective_congr .displayWidth hwidth,
    effective_congr .layout fun _ => hother _ (by decide) (by decide),
    effective_congr .historyLimit fun _ => hother _ (by decide) (by decide),
    effective_congr .undoLimit fun _ => hother _ (by decide) (by decide)]

/-! ## Configurations -/

theorem mapError_eq_error {α : Type} {answer : Except Settings.Error α} {error : Error} :
    answer.mapError .settings = .error error ↔
      ∃ cause, answer = .error cause ∧ error = .settings cause := by
  cases answer <;> simp [Except.mapError, eq_comm]

theorem configure_of_overrides {file : Option Content} (h : readOverrides file = .ok t)
    (mode : Option Mode) (width : Option Nat) :
    (configure file mode width).1 = (resolve (imported t) mode width).mapError .settings := by
  rw [configure, h]
  rfl

/-- **Flags go over the file, and the file over the defaults.** Whatever overrides there are, a
configuration is answered exactly with the preferences that the values mean which count for them, the
width among them at least one, and is refused exactly for the first setting whose value means nothing. The
value of a flag is what the flag says, up to the greatest width. Entries that a flag is over have no part
in the answer. -/
theorem configure_layers {file : Option Content} (hfile : readOverrides file = .ok t)
    (mode : Option Mode) (width : Option Nat) :
    let answer := (configure file mode width).1
    (∀ p, answer = .ok p ↔ Meant t mode width p) ∧
    (∀ p, answer = .ok p → 1 ≤ p.displayWidth) ∧
    (∀ error, answer = .error error ↔
      ∃ choice, (choices t mode width).find? (fun choice => !choice.meant) = some choice ∧
        error = .settings (.invalidValue choice.key choice.value.display)) ∧
    (∀ given, Setting.startMode.read (modeOverride given) = some given) ∧
    (∀ given, 0 < given →
      Setting.displayWidth.read (widthOverride given) = some (min given (2 ^ 63 - 1))) ∧
    ∀ file' t', readOverrides file' = .ok t' →
      (∀ key, ¬ Shadowed mode width key → t'.get? key = t.get? key) →
      (configure file' mode width).1 = answer := by
  have hdecides := decides_resolve t mode width
  have hok : ∀ p, (configure file mode width).1 = .ok p ↔ Meant t mode width p := by
    intro p
    rw [configure_of_overrides hfile, ← hdecides.ok p]
    cases resolve (imported t) mode width <;> simp [Except.mapError]
  refine ⟨hok, fun p hp => ((hok p).mp hp).one_le_displayWidth, fun error => ?_, read_modeOverride,
    fun given hpos => read_widthOverride hpos, fun file' t' hfile' hsame => ?_⟩
  · rw [configure_of_overrides hfile, mapError_eq_error]
    constructor
    · rintro ⟨cause, hcause, rfl⟩
      obtain ⟨choice, hfind, rfl⟩ := (hdecides.refused cause).mp hcause
      exact ⟨choice, hfind, rfl⟩
    · rintro ⟨choice, hfind, rfl⟩
      exact ⟨choice.error, (hdecides.refused _).mpr ⟨choice, hfind, rfl⟩, rfl⟩
  · rw [configure_of_overrides hfile', configure_of_overrides hfile, resolve_congr hsame]

/-- Three entries that mean nothing. -/
def meaningless : Table :=
  .ofList [(startModeKey, .string "hex"), (layoutKey, .string "dvorak"),
    (historyLimitKey, .integer (-1))]

/-- With a flag over the mode, the layout is the first of them that counts; and it is so without the
entry for the mode. -/
theorem meaningless_refused :
    let content := (File.ofTable meaningless).encode.toList.map some
    let rest := Table.ofList [(layoutKey, .string "dvorak"), (historyLimitKey, .integer (-1))]
    readOverrides (some (.ok content)) = .ok meaningless ∧
      (configure (some (.ok content)) (some .scientific) none).1 =
        .error (.settings (.invalidValue layoutKey "dvorak")) ∧
      readOverrides (some (.ok ((File.ofTable rest).encode.toList.map some))) = .ok rest ∧
      (configure (some (.ok ((File.ofTable rest).encode.toList.map some))) (some .scientific)
        none).1 = (configure (some (.ok content)) (some .scientific) none).1 := by
  intro content rest
  have hread (t : Table) :
      readOverrides (some (.ok ((File.ofTable t).encode.toList.map some))) = .ok t := by
    rw [readOverrides, File.decode_encode]
    rfl
  obtain ⟨-, -, hrefused, -, -, hshadowed⟩ :=
    configure_layers (hread meaningless) (some .scientific) none
  refine ⟨hread meaningless, ?_, hread rest, hshadowed _ rest (hread rest) fun key hkey => ?_⟩
  · exact (hrefused _).mpr ⟨⟨layoutKey, .string "dvorak", false⟩, by decide, rfl⟩
  · have hne : key ≠ startModeKey := fun heq => hkey (.inl ⟨heq, rfl⟩)
    simp [rest, meaningless, Table.ofList, Table.get?_insert, hne]

end PocketCalculator.Host
