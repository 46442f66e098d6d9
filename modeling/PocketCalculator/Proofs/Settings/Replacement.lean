import PocketCalculator.Proofs.Settings.Registry

/-!
# Replacing all overrides

A table of overrides is put in place of those before entry by entry, and each entry is looked at by
itself. So what is in effect afterwards is the part of the table that the defaults allow, and there is one
error for each other entry, in the order of the table (`errors_setAll`). What was there before has no part
in it. A table that is allowed as a whole is put in as it is (`replaceOverrides_of_allowed`), and
`replaceOverrides_exact` says what follows for a registry that is given its own overrides, or the same
ones twice.
-/

namespace PocketCalculator.Settings.Registry

variable {r : Registry} {entries : List (String × Value)}

/-! ## Entry by entry -/

/-- There is one error for each entry that is refused. -/
theorem errors_setAll (r : Registry) (entries : List (String × Value)) :
    (r.setAll entries).2 = entries.filterMap fun e => r.refusal? e.1 e.2 := by
  induction entries generalizing r with
  | nil => rfl
  | cons e entries ih =>
    rw [setAll, set_eq, List.filterMap_cons]
    cases r.refusal? e.1 e.2 with
    | some error =>
      show error :: (r.setAll entries).2 = _
      rw [ih]
    | none => exact ih { r with overrides := r.overrides.insert e.1 e.2 }

/-- Where no entry is refused, all are put in. -/
theorem setAll_of_allowed (h : ∀ e ∈ entries, r.refusal? e.1 e.2 = none) :
    r.setAll entries =
      ({ r with overrides := entries.foldl (fun t e => t.insert e.1 e.2) r.overrides }, []) := by
  induction entries generalizing r with
  | nil => rfl
  | cons e entries ih =>
    obtain ⟨hfirst, hrest⟩ := List.forall_mem_cons.mp h
    rw [setAll, set_eq, hfirst]
    exact ih (r := { r with overrides := r.overrides.insert e.1 e.2 }) hrest

theorem replaceOverrides_of_allowed {t : Table} (h : ∀ e ∈ t.entries, r.refusal? e.1 e.2 = none) :
    r.replaceOverrides t = ({ r with overrides := t }, []) := by
  have hall := setAll_of_allowed (r := { r with overrides := .empty }) h
  rw [replaceOverrides, hall]
  show ({ r with overrides := Table.ofList t.entries }, []) = _
  rw [Table.ofList_entries]

/-- Only the defaults of the registry before count. -/
theorem replaceOverrides_congr {s : Registry} (h : s.defaults = r.defaults) (t : Table) :
    s.replaceOverrides t = r.replaceOverrides t := by
  rw [replaceOverrides, h]
  rfl

/-! ## The whole table -/

/-- An entry that the defaults allow: its key has one, and of the same kind. -/
def Allows (r : Registry) (key : String) (value : Value) : Prop :=
  ∃ default, r.defaults.get? key = some default ∧ default.kind = value.kind

instance (r : Registry) (key : String) (value : Value) : Decidable (r.Allows key value) :=
  inferInstanceAs (Decidable (∃ default ∈ r.defaults.get? key, default.kind = value.kind))

/-- **What is in effect after a replacement.** Under each key it is the value of the table, if the key has
a default of the kind of the value, and nothing otherwise. The errors are those of the other entries in
the order of the keys, and the defaults stay. So overrides that are all allowed can be taken out and put
back, and it makes no difference to do the same replacement again. -/
theorem replaceOverrides_exact (r : Registry) (t : Table) :
    (∀ key, (r.replaceOverrides t).1.overrides.get? key =
      (t.get? key).filter fun value => r.Allows key value) ∧
    (r.replaceOverrides t).2 = t.entries.filterMap (fun e =>
      match r.defaults.get? e.1 with
      | none => some (.unknownKey e.1)
      | some default =>
        if default.kind = e.2.kind then none
        else some (.kindMismatch e.1 default.kind e.2.kind)) ∧
    (r.replaceOverrides t).1.defaults = r.defaults ∧
    ((∀ key override, r.overrides.get? key = some override → r.Allows key override) →
      r.replaceOverrides r.overrides = (r, [])) ∧
    (r.replaceOverrides t).1.replaceOverrides t = r.replaceOverrides t := by
  have hdefaults := defaults_replaceOverrides (r := r) t
  refine ⟨fun key => ?_, errors_setAll _ _, hdefaults, fun hallowed => ?_,
    replaceOverrides_congr hdefaults t⟩
  · have hallows : ∀ value, (r.refusal? key value).isNone = decide (r.Allows key value) := by
      intro value
      rw [Bool.eq_iff_iff, decide_eq_true_iff, Option.isNone_iff_eq_none]
      exact refusal?_eq_none
    rw [overrides_replaceOverrides]
    simp only [hallows]
  · refine replaceOverrides_of_allowed fun e he => ?_
    exact refusal?_eq_none.mpr (hallowed e.1 e.2 (Table.get?_of_mem he))

/-- Two limits, the first of them set. -/
def limits : Registry where
  defaults := .ofList [("history.limit", .integer 50), ("undo.limit", .integer 100)]
  overrides := .ofList [("history.limit", .integer 9)]

/-- Of three entries one is allowed; the set limit is gone. Taken out and put back before, it stays. -/
theorem limits_replaced :
    let t := Table.ofList
      [("history.limit", .string "many"), ("undo.limit", .integer 5), ("zoom", .integer 1)]
    (limits.replaceOverrides t).1.overrides.get? "undo.limit" = some (.integer 5) ∧
      (limits.replaceOverrides t).1.overrides.get? "history.limit" = none ∧
      (limits.replaceOverrides t).2 =
        [.kindMismatch "history.limit" .integer .string, .unknownKey "zoom"] ∧
      limits.replaceOverrides limits.overrides = (limits, []) := by
  intro t
  obtain ⟨hoverrides, herrors, -, hback, -⟩ := replaceOverrides_exact limits t
  refine ⟨(hoverrides _).trans (by decide), (hoverrides _).trans (by decide),
    herrors.trans (by decide), hback fun key override hoverride => ?_⟩
  change (Table.empty.insert "history.limit" (.integer 9)).get? key = some override at hoverride
  rw [Table.get?_insert] at hoverride
  split at hoverride
  · next hkey =>
    obtain rfl := hkey
    obtain rfl := Option.some.inj hoverride
    decide
  · cases hoverride

end PocketCalculator.Settings.Registry
