import PocketCalculator.Proofs.Settings.Registry
import PocketCalculator.Settings.Preferences

/-!
# What settings mean

Each setting of the calculator has a key, a default and a reading, which says what the values mean that it
may have (`Setting`). To read a registry is to read its value for one setting after the other
(`Registry.preferences_of_gives`). An entry of another kind than the default is passed over for the default;
one of its kind that means nothing is not, but is the error of the answer (`Setting.answers_entry`).
-/

namespace PocketCalculator.Settings

variable {α : Type}

/-! ## Readings -/

def readNamed (ofName? : String → Option α) (value : Value) : Option α :=
  value.toString?.bind ofName?

/-- An integer that is not negative. -/
def readCount (value : Value) : Option Nat :=
  value.toInteger?.bind fun n => n.toInt.toNat?

def readPositive (value : Value) : Option Nat :=
  (readCount value).filter fun n => 0 < n

theorem kind_of_readNamed {ofName? : String → Option α} {value : Value}
    (h : (readNamed ofName? value).isSome) : value.kind = .string := by
  cases value with
  | integer n => cases h
  | string text => rfl

theorem kind_of_readCount {value : Value} (h : (readCount value).isSome) :
    value.kind = .integer := by
  cases value with
  | integer n => rfl
  | string text => cases h

theorem readCount_integer (n : Int64) :
    readCount (.integer n) = if n < 0 then none else some n.toNatClampNeg := by
  change n.toInt.toNat? = _
  have hsign : n < 0 ↔ n.toInt < 0 := Int64.lt_iff_toInt_lt
  split
  · next hneg =>
    refine Option.eq_none_iff_forall_not_mem.mpr fun m hm => ?_
    have hm : n.toInt = m := Int.mem_toNat?.mp hm
    have hneg := hsign.mp hneg
    omega
  · next hneg =>
    refine Int.mem_toNat?.mpr ?_
    rw [← Int64.toNat_toInt]
    exact (Int.toNat_of_nonneg (Int.not_lt.mp (mt hsign.mpr hneg))).symm

theorem display_of_readCount {value : Value} {n : Nat} (h : readCount value = some n) :
    value.display = toString n := by
  cases value with
  | integer i =>
    have hi : i.toInt = n := Int.mem_toNat?.mp h
    rw [Value.display, hi]
    rfl
  | string text => cases h

theorem kind_of_readPositive {value : Value} (h : (readPositive value).isSome) :
    value.kind = .integer := by
  refine kind_of_readCount ?_
  obtain ⟨n, hn⟩ := Option.isSome_iff_exists.mp h
  rw [(Option.filter_eq_some_iff.mp hn).1]
  rfl

/-! ## Settings -/

/-- A setting of the calculator, by the meaning of its values. A value of another kind than the default
has none. -/
structure Setting (α : Type) where
  key : String
  default : Value
  read : Value → Option α
  standard : α
  registered : Registry.calculator.defaults.get? key = some default
  read_default : read default = some standard
  kind_of_read : ∀ {value}, (read value).isSome → value.kind = default.kind

namespace Setting

def startMode : Setting Mode where
  key := startModeKey
  default := .string "basic"
  read := readNamed Mode.ofName?
  standard := .basic
  registered := by decide
  read_default := by decide
  kind_of_read := kind_of_readNamed

def layout : Setting Layout where
  key := layoutKey
  default := .string Layout.classic.name
  read := readNamed Layout.ofName?
  standard := .classic
  registered := by decide
  read_default := by decide
  kind_of_read := kind_of_readNamed

def displayWidth : Setting Nat where
  key := displayWidthKey
  default := .integer (.ofNat Preferences.defaultDisplayWidth)
  read := readPositive
  standard := Preferences.defaultDisplayWidth
  registered := by decide
  read_default := by decide
  kind_of_read := kind_of_readPositive

def historyLimit : Setting Nat where
  key := historyLimitKey
  default := .integer (.ofNat Session.defaultHistoryLimit)
  read := readCount
  standard := Session.defaultHistoryLimit
  registered := by decide
  read_default := by decide
  kind_of_read := kind_of_readCount

def undoLimit : Setting Nat where
  key := undoLimitKey
  default := .integer (.ofNat Session.defaultUndoLimit)
  read := readCount
  standard := Session.defaultUndoLimit
  registered := by decide
  read_default := by decide
  kind_of_read := kind_of_readCount

variable {s : Setting α} {t : Table}

/-- What reading a value answers. -/
def answer (s : Setting α) (value : Value) : Except Error α :=
  (s.read value).elim (.error (.invalidValue s.key value.display)) .ok

/-- The value of a setting that counts: that of a flag, else an entry of the right kind, else the
default. -/
def effective (s : Setting α) (t : Table) (flag : Option Value) : Value :=
  (flag.or ((t.get? s.key).filter fun value => value.kind = s.default.kind)).getD s.default

/-- What a setting means if entries that mean nothing are passed over. -/
def meaning (s : Setting α) (t : Table) (given : Option α) : α :=
  given.getD (((t.get? s.key).bind s.read).getD s.standard)

/-- There is an entry for the setting, of the right kind, that means nothing. -/
def Spoiled (s : Setting α) (t : Table) : Prop :=
  ∃ value ∈ t.get? s.key, value.kind = s.default.kind ∧ s.read value = none

instance : Decidable (s.Spoiled t) :=
  inferInstanceAs (Decidable (∃ value ∈ t.get? s.key,
    value.kind = s.default.kind ∧ s.read value = none))

theorem answer_of_read {value : Value} {a : α} (h : s.read value = some a) :
    s.answer value = .ok a := by
  rw [answer, h]
  rfl

theorem kind_effective {flag : Option Value}
    (hflag : ∀ value ∈ flag, value.kind = s.default.kind) :
    (s.effective t flag).kind = s.default.kind := by
  cases flag with
  | some value => exact hflag value rfl
  | none =>
    rw [effective, Option.none_or]
    cases hentry : (t.get? s.key).filter fun value => value.kind = s.default.kind with
    | none => rfl
    | some value => exact of_decide_eq_true (Option.filter_eq_some_iff.mp hentry).2

theorem read_of_kind_ne {value : Value} (h : value.kind ≠ s.default.kind) : s.read value = none := by
  cases hread : s.read value with
  | none => rfl
  | some a =>
    refine absurd (s.kind_of_read ?_) h
    rw [hread]
    rfl

theorem read_effective (h : ¬ s.Spoiled t) :
    s.read (s.effective t none) = some (s.meaning t none) := by
  rw [effective, meaning, Option.none_or, Option.getD_none]
  cases hentry : t.get? s.key with
  | none => exact s.read_default
  | some value =>
    rw [Option.filter_some, Option.bind_some]
    by_cases hkind : value.kind = s.default.kind
    · rw [if_pos (decide_eq_true hkind), Option.getD_some]
      cases hread : s.read value with
      | some a => rfl
      | none => exact absurd ⟨value, hentry, hkind, hread⟩ h
    · rw [if_neg (mt of_decide_eq_true hkind), read_of_kind_ne hkind]
      exact s.read_default

/-- What is answered of a table: `a`, unless entries spoil it. Then one of them is refused with its key
and value. -/
structure Answers (t : Table) (spoiled : Prop) (answer : Except Error α) (a : α) : Prop where
  ok : ¬ spoiled → answer = .ok a
  refused : spoiled → ∃ key value, t.get? key = some value ∧
    answer = .error (.invalidValue key value.display)

/-- The first of two readings that is refused ends both. -/
theorem Answers.bind {β : Type} {p q : Prop} {answer : Except Error α} {a : α}
    {next : α → Except Error β} {b : β} (h : Answers t p answer a) (hnext : Answers t q (next a) b) :
    Answers t (p ∨ q) (answer >>= next) b where
  ok hspoiled := by
    obtain ⟨hp, hq⟩ := not_or.mp hspoiled
    rw [h.ok hp]
    exact hnext.ok hq
  refused hspoiled := by
    by_cases hp : p
    · obtain ⟨key, value, hentry, herror⟩ := h.refused hp
      rw [herror]
      exact ⟨key, value, hentry, rfl⟩
    · rw [h.ok hp]
      exact hnext.refused (hspoiled.resolve_left hp)

theorem Answers.map {β : Type} {p : Prop} {answer : Except Error α} {a : α} (h : Answers t p answer a)
    (f : α → β) : Answers t p (answer >>= fun a => .ok (f a)) (f a) where
  ok hspoiled := by
    rw [h.ok hspoiled]
    rfl
  refused hspoiled := by
    obtain ⟨key, value, hentry, herror⟩ := h.refused hspoiled
    rw [herror]
    exact ⟨key, value, hentry, rfl⟩

/-- A setting without a flag is answered by its meaning, unless its entry is spoiled. -/
theorem answers_entry (s : Setting α) (t : Table) :
    Answers t (s.Spoiled t) (s.answer (s.effective t none)) (s.meaning t none) where
  ok h := answer_of_read (read_effective h)
  refused h := by
    obtain ⟨value, hentry, hkind, hread⟩ := h
    have hentry : t.get? s.key = some value := hentry
    have heffective : s.effective t none = value := by
      rw [effective, Option.none_or, hentry, Option.filter_some, if_pos (decide_eq_true hkind)]
      rfl
    rw [heffective, answer, hread]
    exact ⟨s.key, value, hentry, rfl⟩

/-- A flag that means something is answered by that, and keeps the entry from being read. -/
theorem answers_effective (s : Setting α) (t : Table) {flag : Option Value} {given : Option α}
    (hflag : flag.map s.read = given.map some) :
    Answers t (given = none ∧ s.Spoiled t) (s.answer (s.effective t flag)) (s.meaning t given) := by
  cases given with
  | none =>
    rw [Option.map_none, Option.map_eq_none_iff] at hflag
    rw [hflag, eq_self, true_and]
    exact s.answers_entry t
  | some a =>
    obtain ⟨value, rfl, hread⟩ := Option.map_eq_some_iff.mp hflag
    exact ⟨fun _ => answer_of_read hread, nofun⟩

/-- Under the key of a setting, values of another kind than the default are refused. -/
theorem refusal?_isNone (s : Setting α) (value : Value) :
    (Registry.calculator.refusal? s.key value).isNone = decide (value.kind = s.default.kind) := by
  rw [Bool.eq_iff_iff, decide_eq_true_iff, Option.isNone_iff_eq_none, Registry.refusal?_eq_none,
    s.registered]
  constructor
  · rintro ⟨_, ⟨⟩, hkind⟩
    exact hkind.symm
  · exact fun hkind => ⟨s.default, rfl, hkind.symm⟩

end Setting

/-! ## Reading a registry -/

namespace Registry

variable {r : Registry} {key : String} {value : Value}

theorem getNamed_eq {ofName? : String → Option α} (hget : r.get? key = some value)
    (hkind : value.kind = .string) : r.getNamed key ofName? =
      (readNamed ofName? value).elim (.error (.invalidValue key value.display)) .ok := by
  cases value with
  | integer n => cases hkind
  | string text =>
    have hstring : r.getString key = .ok text := by
      rw [getString, getValue, hget]
      rfl
    have hread : readNamed ofName? (.string text) = ofName? text := rfl
    rw [getNamed, hstring, hread]
    dsimp only [bind, Except.bind]
    cases ofName? text <;> rfl

theorem getCount_eq (hget : r.get? key = some value) (hkind : value.kind = .integer) :
    r.getCount key =
      (readCount value).elim (.error (.invalidValue key value.display)) .ok := by
  cases value with
  | string text => cases hkind
  | integer n =>
    rw [getCount, getValue, hget]
    change (if n < 0 then Except.error (Error.invalidValue key (toString n.toInt))
      else .ok n.toNatClampNeg) = (readCount (.integer n)).elim
        (.error (.invalidValue key (toString n.toInt))) .ok
    rw [readCount_integer]
    split <;> rfl

theorem getPositive_eq (hget : r.get? key = some value) (hkind : value.kind = .integer) :
    r.getPositive key =
      (readPositive value).elim (.error (.invalidValue key value.display)) .ok := by
  rw [getPositive, getCount_eq hget hkind, readPositive]
  cases hcount : readCount value with
  | none => rfl
  | some n =>
    change (if n = 0 then Except.error (Error.invalidValue key "0") else .ok n) = _
    rw [Option.filter_some]
    by_cases hzero : n = 0
    · subst hzero
      rw [if_pos rfl, display_of_readCount hcount]
      rfl
    · rw [if_neg hzero, if_pos (decide_eq_true (Nat.pos_of_ne_zero hzero))]
      rfl

/-- What a registry has for a setting. -/
structure Gives (r : Registry) (s : Setting α) (value : Value) : Prop where
  get : r.get? s.key = some value
  kind : value.kind = s.default.kind

/-- The settings are read one after the other, the first error ends it. -/
theorem preferences_of_gives {mode layout width history undo : Value}
    (hmode : r.Gives .startMode mode) (hlayout : r.Gives .layout layout)
    (hwidth : r.Gives .displayWidth width) (hhistory : r.Gives .historyLimit history)
    (hundo : r.Gives .undoLimit undo) : r.preferences = do
      let startMode ← Setting.startMode.answer mode
      let layout ← Setting.layout.answer layout
      let displayWidth ← Setting.displayWidth.answer width
      let historyLimit ← Setting.historyLimit.answer history
      let undoLimit ← Setting.undoLimit.answer undo
      return { startMode, displayWidth, historyLimit, undoLimit, layout } := by
  have hmode : r.getNamed startModeKey Mode.ofName? = Setting.startMode.answer mode :=
    getNamed_eq hmode.get hmode.kind
  have hlayout : r.getNamed layoutKey Layout.ofName? = Setting.layout.answer layout :=
    getNamed_eq hlayout.get hlayout.kind
  have hwidth : r.getPositive displayWidthKey = Setting.displayWidth.answer width :=
    getPositive_eq hwidth.get hwidth.kind
  have hhistory : r.getCount historyLimitKey = Setting.historyLimit.answer history :=
    getCount_eq hhistory.get hhistory.kind
  have hundo : r.getCount undoLimitKey = Setting.undoLimit.answer undo :=
    getCount_eq hundo.get hundo.kind
  rw [preferences, hmode, hlayout, hwidth, hhistory, hundo]
  rfl

end Registry

end PocketCalculator.Settings
