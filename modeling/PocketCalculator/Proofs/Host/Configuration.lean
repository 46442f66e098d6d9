import PocketCalculator.Host.Configuration
import PocketCalculator.Proofs.Settings.File
import PocketCalculator.Proofs.Settings.Preferences

/-!
# Configurations

What counts for a setting is the value of its flag, else the entry of the file if it is of the right kind,
else the default (`resolve_eq`). Entries under other keys or of another kind are passed over, and so is
whatever a flag is over. An entry of the right kind that means nothing is not: it is the error of the whole
configuration (`configure_skips_iff`).
-/

namespace PocketCalculator.Host

open Settings

variable {α : Type} {t : Table} {mode : Option Mode} {width : Option Nat}

/-! ## Flags -/

/-- A registry with the value of a flag over its overrides. -/
def flagged (r : Registry) (key : String) (flag : Option Value) : Registry :=
  { r with overrides := flag.elim r.overrides (r.overrides.insert key) }

theorem get?_flagged (r : Registry) (key other : String) (flag : Option Value) :
    (flagged r key flag).overrides.get? other =
      if other = key then flag.or (r.overrides.get? other) else r.overrides.get? other := by
  cases flag with
  | none => split <;> rfl
  | some value => exact Table.get?_insert ..

/-- A flag of the kind of its setting is set. -/
theorem setFlag_eq (s : Setting α) {r : Registry} {flag : Option Value}
    (hdefaults : r.defaults = Registry.calculator.defaults)
    (hflag : ∀ value ∈ flag, value.kind = s.default.kind) :
    setFlag r s.key flag = .ok (flagged r s.key flag) := by
  cases flag with
  | none => rfl
  | some value =>
    have hset : r.refusal? s.key value = none := by
      rw [Registry.refusal?_congr hdefaults, ← Option.isNone_iff_eq_none, s.refusal?_isNone]
      exact decide_eq_true (hflag value rfl)
    rw [setFlag, Registry.set_eq, hset]
    rfl

theorem kind_of_mem_map (override : α → Value) {kind : Kind} (h : ∀ a, (override a).kind = kind)
    (flag : Option α) : ∀ value ∈ flag.map override, value.kind = kind := by
  intro value hvalue
  obtain ⟨a, -, rfl⟩ := Option.map_eq_some_iff.mp hvalue
  exact h a

theorem read_modeOverride (mode : Mode) : Setting.startMode.read (modeOverride mode) = some mode := by
  cases mode <;> decide

/-- The greatest width that a flag can set. -/
def greatestWidth : Nat :=
  2 ^ 63 - 1

theorem read_widthOverride {width : Nat} (h : 0 < width) :
    Setting.displayWidth.read (widthOverride width) = some (min width greatestWidth) := by
  have hgreatest : Int64.maxValue.toInt.toNat = greatestWidth := by decide
  have hbound : min width greatestWidth < 2 ^ 63 :=
    Nat.lt_of_le_of_lt (Nat.min_le_right ..) (by decide)
  have hcount : readCount (widthOverride width) = some (min width greatestWidth) := by
    rw [widthOverride, hgreatest]
    exact Int.mem_toNat?.mpr (Int64.toInt_ofNat_of_lt hbound)
  have hpos : 0 < min width greatestWidth := Nat.lt_min.mpr ⟨h, by decide⟩
  exact Option.filter_eq_some_iff.mpr ⟨hcount, decide_eq_true hpos⟩

/-! ## The registry of a configuration -/

/-- The registry with the overrides of a file. -/
def imported (t : Table) : Registry :=
  (Registry.calculator.replaceOverrides t).1

/-- The registry with the overrides of a file, and flags over them. -/
def layered (t : Table) (mode : Option Mode) (width : Option Nat) : Registry :=
  flagged (flagged (imported t) startModeKey (mode.map modeOverride)) displayWidthKey
    (width.map widthOverride)

theorem defaults_imported (t : Table) : (imported t).defaults = Registry.calculator.defaults :=
  Registry.defaults_replaceOverrides t

theorem resolve_eq_preferences :
    resolve (imported t) mode width = (layered t mode width).preferences := by
  have hmode : setFlag (imported t) startModeKey (mode.map modeOverride) =
      .ok (flagged (imported t) startModeKey (mode.map modeOverride)) :=
    setFlag_eq .startMode (defaults_imported t) (kind_of_mem_map modeOverride (fun _ => rfl) mode)
  have hwidth : setFlag (flagged (imported t) startModeKey (mode.map modeOverride)) displayWidthKey
      (width.map widthOverride) = .ok (layered t mode width) :=
    setFlag_eq .displayWidth (defaults_imported t) (kind_of_mem_map widthOverride (fun _ => rfl) width)
  rw [resolve, hmode]
  change setFlag _ displayWidthKey _ >>= _ = _
  rw [hwidth]
  rfl

/-- What the registry of a configuration has for a setting, if nothing but its own flag is over the
file. -/
theorem gives_layered {s : Setting α} {flag : Option Value}
    (hflag : ∀ value ∈ flag, value.kind = s.default.kind)
    (h : (layered t mode width).overrides.get? s.key =
      flag.or ((imported t).overrides.get? s.key)) :
    (layered t mode width).Gives s (s.effective t flag) where
  get := by
    have hdefault : (layered t mode width).defaults.get? s.key = some s.default :=
      (congrArg (Table.get? · s.key) (defaults_imported t)).trans s.registered
    rw [Registry.get?, h, imported, Registry.overrides_replaceOverrides, hdefault, Option.or_some]
    simp only [Setting.refusal?_isNone]
    rfl
  kind := Setting.kind_effective hflag

theorem overrides_layered (t : Table) (mode : Option Mode) (width : Option Nat) (key : String) :
    (layered t mode width).overrides.get? key =
      let entry := (imported t).overrides.get? key
      if key = displayWidthKey then (width.map widthOverride).or entry
      else if key = startModeKey then (mode.map modeOverride).or entry
      else entry := by
  rw [layered, get?_flagged, get?_flagged]
  split
  · next hkey =>
    have hother : key ≠ startModeKey := hkey ▸ by decide
    rw [if_neg hother]
  · rfl

/-- **What a configuration resolves to.** Each setting is read from its flag, else from the file, else
from the default, and the first that cannot be read is the error. -/
theorem resolve_eq (t : Table) (mode : Option Mode) (width : Option Nat) :
    resolve (imported t) mode width = do
      let startMode ← Setting.startMode.answer
        (Setting.startMode.effective t (mode.map modeOverride))
      let layout ← Setting.layout.answer (Setting.layout.effective t none)
      let displayWidth ← Setting.displayWidth.answer
        (Setting.displayWidth.effective t (width.map widthOverride))
      let historyLimit ← Setting.historyLimit.answer (Setting.historyLimit.effective t none)
      let undoLimit ← Setting.undoLimit.answer (Setting.undoLimit.effective t none)
      return { startMode, displayWidth, historyLimit, undoLimit, layout } := by
  rw [resolve_eq_preferences]
  refine Registry.preferences_of_gives ?_ ?_ ?_ ?_ ?_
  · exact gives_layered (kind_of_mem_map modeOverride (fun _ => rfl) mode) (overrides_layered ..)
  · exact gives_layered nofun (overrides_layered ..)
  · exact gives_layered (kind_of_mem_map widthOverride (fun _ => rfl) width) (overrides_layered ..)
  · exact gives_layered nofun (overrides_layered ..)
  · exact gives_layered nofun (overrides_layered ..)

/-! ## Entries that mean nothing -/

/-- The preferences if entries that mean nothing are passed over. -/
def merged (t : Table) (mode : Option Mode) (width : Option Nat) : Preferences where
  startMode := Setting.startMode.meaning t mode
  displayWidth := Setting.displayWidth.meaning t (width.map (min · greatestWidth))
  historyLimit := Setting.historyLimit.meaning t none
  undoLimit := Setting.undoLimit.meaning t none
  layout := Setting.layout.meaning t none

/-- There is an entry, for a setting without a flag, of the right kind that means nothing. -/
def Spoiled (t : Table) (mode : Option Mode) (width : Option Nat) : Prop :=
  (mode = none ∧ Setting.startMode.Spoiled t) ∨ Setting.layout.Spoiled t ∨
    (width = none ∧ Setting.displayWidth.Spoiled t) ∨ Setting.historyLimit.Spoiled t ∨
      Setting.undoLimit.Spoiled t

instance : Decidable (Spoiled t mode width) :=
  inferInstanceAs (Decidable (_ ∨ _))

theorem answers_resolve (t : Table) (mode : Option Mode) {width : Option Nat}
    (hwidth : ∀ given ∈ width, 0 < given) :
    Setting.Answers t (Spoiled t mode width) (resolve (imported t) mode width)
      (merged t mode width) := by
  have hmode : (mode.map modeOverride).map Setting.startMode.read = mode.map some := by
    cases mode with
    | none => rfl
    | some given => exact congrArg some (read_modeOverride given)
  have hwidth : (width.map widthOverride).map Setting.displayWidth.read =
      (width.map (min · greatestWidth)).map some := by
    cases width with
    | none => rfl
    | some given => exact congrArg some (read_widthOverride (hwidth given rfl))
  have hstart := Setting.startMode.answers_effective t hmode
  have hdisplay := Setting.displayWidth.answers_effective t hwidth
  rw [Option.map_eq_none_iff] at hdisplay
  rw [resolve_eq]
  refine hstart.bind ?_
  refine (Setting.layout.answers_entry t).bind ?_
  refine hdisplay.bind ?_
  refine (Setting.historyLimit.answers_entry t).bind ?_
  exact (Setting.undoLimit.answers_entry t).map fun undoLimit =>
    { merged t mode width with undoLimit }

theorem configure_of_decode {content : Text.Scanned} {f : File} (h : File.decode content = .ok f)
    (mode : Option Mode) (width : Option Nat) :
    (configure (some (.ok content)) mode width).1 =
      (resolve (imported f.overrides) mode width).mapError .settings := by
  rw [configure, readOverrides, h]
  rfl

/-- **Which entries of a file cost the others.** Entries that mean nothing are passed over, and all others
count but where a flag is over them, exactly if no entry without a flag over it is of the right kind and
means nothing. Such an entry is refused with its key and value, and so is the whole file. -/
theorem configure_skips_iff {content : Text.Scanned} {f : File}
    (hfile : File.decode content = .ok f) (mode : Option Mode) (width : Option Nat)
    (hwidth : ∀ given ∈ width, 0 < given) :
    let answer := (configure (some (.ok content)) mode width).1
    (answer = .ok (merged f.overrides mode width) ↔ ¬ Spoiled f.overrides mode width) ∧
      (Spoiled f.overrides mode width → ∃ key value, f.overrides.get? key = some value ∧
        answer = .error (.settings (.invalidValue key value.display))) := by
  dsimp only
  have hanswers := answers_resolve f.overrides mode hwidth
  rw [configure_of_decode hfile]
  refine ⟨⟨fun hok hspoiled => ?_, fun hspoiled => ?_⟩, fun hspoiled => ?_⟩
  · obtain ⟨key, value, -, herror⟩ := hanswers.refused hspoiled
    rw [herror] at hok
    cases hok
  · rw [hanswers.ok hspoiled]
    rfl
  · obtain ⟨key, value, hentry, herror⟩ := hanswers.refused hspoiled
    rw [herror]
    exact ⟨key, value, hentry, rfl⟩

/-- An unknown key, a width that is a text, and a mode that is none but has a flag over it are passed
over; the history limit of the same file counts. -/
def partlyUsable : Table :=
  .ofList [(startModeKey, .string "hex"), (displayWidthKey, .string "wide"),
    (historyLimitKey, .integer 7), ("unknown.key", .integer 1)]

theorem partlyUsable_configured :
    (configure (some (.ok ((File.ofTable partlyUsable).encode.toList.map some))) (some .scientific)
      none).1 = .ok { Preferences.default with startMode := .scientific, historyLimit := 7 } := by
  have hspoiled : ¬ Spoiled partlyUsable (some .scientific) none := by decide
  refine ((configure_skips_iff (File.decode_encode (.ofTable partlyUsable)) (some .scientific) none
    nofun).1.mpr hspoiled).trans ?_
  decide

/-- A layout that there is not costs the whole file. -/
def unknownLayout : Table :=
  .ofList [(layoutKey, .string "dvorak"), (historyLimitKey, .integer 7)]

theorem unknownLayout_refused :
    let content := (File.ofTable unknownLayout).encode.toList.map some
    File.decode content = .ok (.ofTable unknownLayout) ∧
      (configure (some (.ok content)) none none).1 =
        .error (.settings (.invalidValue layoutKey "dvorak")) := by
  have hdecode := File.decode_encode (.ofTable unknownLayout)
  refine ⟨hdecode, ?_⟩
  rw [configure_of_decode hdecode]
  rfl

end PocketCalculator.Host
