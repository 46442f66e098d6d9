import PocketCalculator.Proofs.Settings.Table
import PocketCalculator.Settings.Registry

/-!
# The settings registry

To set an override, and to replace all of them, checks each against its default, so neither brings in one
of another kind (`Typed.set`, `Typed.setAll`), and of a table of overrides exactly those get in that are not
refused (`overrides_replaceOverrides`). To register a default checks nothing. A registry is therefore typed
all along its calls exactly if none of them registers, for a key that holds an override, a default of
another kind (`typed_along_iff`).
-/

namespace PocketCalculator.Settings.Registry

variable {r : Registry} {key : String} {value : Value}

/-! ## What is registered, and what is refused -/

theorem defaults_register (r : Registry) (key other : String) (value : Value) :
    (r.register key value).defaults.get? other =
      if other = key then some value else r.defaults.get? other :=
  Table.get?_insert ..

theorem refusal?_eq_none :
    r.refusal? key value = none ↔ ∃ default, r.defaults.get? key = some default ∧
      default.kind = value.kind := by
  unfold refusal?
  cases r.defaults.get? key with
  | none => simp
  | some default =>
    dsimp only
    split <;> simp_all

/-- Only the defaults decide. -/
theorem refusal?_congr {s : Registry} (h : s.defaults = r.defaults) :
    s.refusal? key value = r.refusal? key value := by
  rw [refusal?, h]
  rfl

theorem set_eq (r : Registry) (key : String) (value : Value) :
    r.set key value = match r.refusal? key value with
      | some error => .error error
      | none => .ok { r with overrides := r.overrides.insert key value } := rfl

/-- What is set has a default of its kind, and is put over it. -/
theorem of_set {next : Registry} (h : r.set key value = .ok next) :
    (∃ default, r.defaults.get? key = some default ∧ default.kind = value.kind) ∧
      next = { r with overrides := r.overrides.insert key value } := by
  rw [set_eq] at h
  cases hrefusal : r.refusal? key value with
  | some error =>
    rw [hrefusal] at h
    cases h
  | none =>
    rw [hrefusal] at h
    exact ⟨refusal?_eq_none.mp hrefusal, (Except.ok.inj h).symm⟩

theorem defaults_set {next : Registry} (h : r.set key value = .ok next) :
    next.defaults = r.defaults := by
  rw [(of_set h).2]

/-- What setting one override preserves, setting many does. -/
theorem setAll_induction {P : Registry → Prop}
    (hset : ∀ {r next : Registry} {key : String} {value : Value},
      P r → r.set key value = .ok next → P next) (h : P r) (entries : List (String × Value)) :
    P (r.setAll entries).1 := by
  induction entries generalizing r with
  | nil => exact h
  | cons e entries ih =>
    rw [setAll]
    cases hfirst : r.set e.1 e.2 with
    | error error => exact ih h
    | ok next => exact ih (hset h hfirst)

/-- Setting never touches the defaults. -/
theorem defaults_setAll (entries : List (String × Value)) :
    (r.setAll entries).1.defaults = r.defaults :=
  setAll_induction (P := fun next => next.defaults = r.defaults)
    (fun hsame hset => (defaults_set hset).trans hsame) rfl entries

/-- Of the entries that are set, those that are not refused go over the overrides before. -/
theorem overrides_setAll {entries : List (String × Value)} (hkeys : (entries.map (·.1)).Nodup)
    (key : String) : (r.setAll entries).1.overrides.get? key =
      ((entries.lookup key).filter fun value => (r.refusal? key value).isNone).or
        (r.overrides.get? key) := by
  induction entries generalizing r with
  | nil => rfl
  | cons e entries ih =>
    obtain ⟨k, v⟩ := e
    obtain ⟨hfresh, hrest⟩ := List.nodup_cons.mp hkeys
    have hnone : entries.lookup k = none := by
      refine List.lookup_eq_none_iff.mpr fun e he => bne_iff_ne.mpr fun heq => hfresh ?_
      exact List.mem_map.mpr ⟨e, he, heq.symm⟩
    rw [setAll, set_eq, Table.lookup_cons]
    by_cases hkey : key = k
    · subst hkey
      rw [if_pos rfl, Option.filter_some]
      cases hrefusal : r.refusal? key v with
      | some error =>
        refine (ih hrest).trans ?_
        rw [hnone]
        rfl
      | none =>
        refine (ih hrest).trans ?_
        rw [hnone, Table.get?_insert, if_pos rfl]
        rfl
    · rw [if_neg hkey]
      cases r.refusal? k v with
      | some error => exact ih hrest
      | none =>
        refine (ih hrest).trans ?_
        rw [Table.get?_insert, if_neg hkey]
        rfl

/-- The overrides after a replacement are those of the table that are not refused. -/
theorem overrides_replaceOverrides (t : Table) (key : String) :
    (r.replaceOverrides t).1.overrides.get? key =
      (t.get? key).filter fun value => (r.refusal? key value).isNone := by
  refine (overrides_setAll t.nodup_keys key).trans ?_
  rw [Table.get?_empty, Option.or_none]
  rfl

theorem defaults_replaceOverrides (t : Table) :
    (r.replaceOverrides t).1.defaults = r.defaults :=
  defaults_setAll t.entries

/-! ## Registries of one kind under each key -/

/-- Every override has a default of its kind, and every value that is got is of the kind of the
default. -/
structure Typed (r : Registry) : Prop where
  overrides : ∀ key override, r.overrides.get? key = some override →
    ∃ default, r.defaults.get? key = some default ∧ override.kind = default.kind
  values : ∀ key value default, r.get? key = some value → r.defaults.get? key = some default →
    value.kind = default.kind

/-- What is got is the override or the default itself. -/
theorem typed_of_overrides
    (h : ∀ key override, r.overrides.get? key = some override →
      ∃ default, r.defaults.get? key = some default ∧ override.kind = default.kind) : r.Typed where
  overrides := h
  values := by
    intro key value default hvalue hdefault
    rw [get?] at hvalue
    cases hoverride : r.overrides.get? key with
    | none =>
      rw [hoverride, Option.none_or, hdefault] at hvalue
      rw [Option.some.inj hvalue]
    | some override =>
      obtain ⟨other, hother, hkind⟩ := h key override hoverride
      rw [hoverride, Option.some_or] at hvalue
      rw [hdefault] at hother
      rw [← Option.some.inj hvalue, Option.some.inj hother, hkind]

theorem typed_of_no_overrides (h : r.overrides = .empty) : r.Typed := by
  refine typed_of_overrides fun key override hoverride => ?_
  rw [h, Table.get?_empty] at hoverride
  cases hoverride

theorem Typed.set (h : r.Typed) {next : Registry} (hset : r.set key value = .ok next) :
    next.Typed := by
  obtain ⟨⟨default, hdefault, hkind⟩, rfl⟩ := of_set hset
  refine typed_of_overrides fun other override hoverride => ?_
  rw [Table.get?_insert] at hoverride
  split at hoverride
  · next hkey =>
    rw [hkey, ← Option.some.inj hoverride]
    exact ⟨default, hdefault, hkind.symm⟩
  · exact h.overrides other override hoverride

theorem Typed.setAll (h : r.Typed) (entries : List (String × Value)) :
    (r.setAll entries).1.Typed :=
  setAll_induction (fun h hset => h.set hset) h entries

/-- Only an override under the key can be of another kind than the new default. -/
theorem typed_register_iff (h : r.Typed) :
    (r.register key value).Typed ↔
      ∀ override, r.overrides.get? key = some override → override.kind = value.kind := by
  constructor
  · intro htyped override hoverride
    obtain ⟨default, hdefault, hkind⟩ := htyped.overrides key override hoverride
    rw [defaults_register, if_pos rfl] at hdefault
    rw [hkind, Option.some.inj hdefault]
  · intro hkinds
    refine typed_of_overrides fun other override hoverride => ?_
    rw [defaults_register]
    split
    · next hkey => exact ⟨value, rfl, hkinds override (hkey ▸ hoverride)⟩
    · exact h.overrides other override hoverride

/-! ## Calls -/

/-- What changes a registry. -/
inductive Call where
  | register (key : String) (value : Value)
  | set (key : String) (value : Value)
  | replaceOverrides (overrides : Table)

/-- The registry after a call. One that is refused leaves it as it is. -/
def perform (r : Registry) : Call → Registry
  | .register key value => r.register key value
  | .set key value =>
    match r.set key value with
    | .ok next => next
    | .error _ => r
  | .replaceOverrides overrides => (r.replaceOverrides overrides).1

/-- The registry that calls make out of an empty one. -/
def after (calls : List Call) : Registry :=
  calls.foldl perform empty

theorem after_concat (calls : List Call) (call : Call) :
    after (calls ++ [call]) = (after calls).perform call := by
  rw [after, List.foldl_append]
  rfl

/-- No call registers, for a key that holds an override then, a default of another kind. -/
def KeepsKinds (calls : List Call) : Prop :=
  ∀ before key value, before ++ [.register key value] <+: calls →
    ∀ override, (after before).overrides.get? key = some override → override.kind = value.kind

theorem typed_perform_iff (h : r.Typed) (call : Call) :
    (r.perform call).Typed ↔ ∀ key value, call = .register key value →
      ∀ override, r.overrides.get? key = some override → override.kind = value.kind := by
  cases call with
  | register key value =>
    refine (typed_register_iff h).trans ⟨fun hkinds => ?_, fun hkinds => hkinds key value rfl⟩
    rintro _ _ ⟨⟩
    exact hkinds
  | set key value =>
    refine iff_of_true ?_ nofun
    dsimp only [perform]
    cases hset : r.set key value with
    | ok next => exact h.set hset
    | error error => exact h
  | replaceOverrides overrides =>
    refine iff_of_true ?_ nofun
    exact (typed_of_no_overrides (r := { r with overrides := .empty }) rfl).setAll _

/-! ## Runs of calls -/

/-- Every override has some default. -/
def Defaulted (r : Registry) : Prop :=
  ∀ key override, r.overrides.get? key = some override → (r.defaults.get? key).isSome

theorem Defaulted.set (h : r.Defaulted) {next : Registry} (hset : r.set key value = .ok next) :
    next.Defaulted := by
  obtain ⟨⟨default, hdefault, -⟩, rfl⟩ := of_set hset
  intro other override hoverride
  rw [Table.get?_insert] at hoverride
  split at hoverride
  · next hkey => rw [hkey, hdefault, Option.isSome_some]
  · exact h other override hoverride

/-- A default can be replaced and is never taken away. -/
theorem Defaulted.perform (h : r.Defaulted) (call : Call) : (r.perform call).Defaulted := by
  cases call with
  | register key value =>
    intro other override hoverride
    rw [Registry.perform, defaults_register]
    split
    · rfl
    · exact h other override hoverride
  | set key value =>
    dsimp only [Registry.perform]
    cases hset : r.set key value with
    | ok next => exact h.set hset
    | error error => exact h
  | replaceOverrides overrides =>
    exact setAll_induction (fun h hset => h.set hset)
      (r := { r with overrides := .empty }) nofun overrides.entries

theorem defaulted_after (calls : List Call) : (after calls).Defaulted := by
  induction calls using List.reverseRecOn with
  | nil => exact nofun
  | append_singleton calls call ih =>
    rw [after_concat]
    exact ih.perform call

theorem keepsKinds_concat (calls : List Call) (call : Call) :
    KeepsKinds (calls ++ [call]) ↔ KeepsKinds calls ∧ ∀ key value, call = .register key value →
      ∀ override, (after calls).overrides.get? key = some override → override.kind = value.kind := by
  constructor
  · intro h
    refine ⟨fun before key value hbefore => h before key value (hbefore.trans ?_), ?_⟩
    · exact List.prefix_append ..
    · rintro key value rfl
      exact h calls key value List.prefix_rfl
  · rintro ⟨h, hlast⟩ before key value hbefore
    rcases List.prefix_concat_iff.mp hbefore with heq | hbefore
    · obtain ⟨rfl, hcall⟩ := List.append_inj' heq rfl
      exact hlast key value (List.singleton_inj.mp hcall).symm
    · exact h before key value hbefore

/-- **When overrides have the kinds of their defaults.** Whatever is called, every override has a
default, but only what sets overrides checks their kinds: a registry is typed all along its calls
exactly if none of them registers another kind of default for a key that holds an override. -/
theorem typed_along_iff (calls : List Call) :
    ((∀ before, before <+: calls → (after before).Typed) ↔ KeepsKinds calls) ∧
      (after calls).Defaulted := by
  refine ⟨?_, defaulted_after calls⟩
  induction calls using List.reverseRecOn with
  | nil =>
    refine iff_of_true ?_ ?_
    · intro before hbefore
      rw [List.prefix_nil.mp hbefore]
      exact typed_of_no_overrides rfl
    · intro before key value hbefore
      simp at hbefore
  | append_singleton calls call ih =>
    rw [keepsKinds_concat, ← ih]
    constructor
    · intro h
      have hcalls : (after calls).Typed := h calls (List.prefix_append ..)
      refine ⟨fun before hbefore => h before (hbefore.trans (List.prefix_append ..)), ?_⟩
      refine (typed_perform_iff hcalls call).mp ?_
      rw [← after_concat]
      exact h _ List.prefix_rfl
    · rintro ⟨h, hlast⟩ before hbefore
      rcases List.prefix_concat_iff.mp hbefore with rfl | hbefore
      · rw [after_concat]
        exact (typed_perform_iff (h calls List.prefix_rfl) call).mpr hlast
      · exact h before hbefore

/-- An integer is set, and then a text is registered as the default. -/
def reregistration : List Call :=
  [.register "k" (.integer 1), .set "k" (.integer 2), .register "k" (.string "x")]

/-- The integer is still got where the default is a text. -/
theorem reregistered_mistyped :
    ¬ (after reregistration).Typed ∧ (after reregistration).get? "k" = some (.integer 2) ∧
      (after reregistration).defaults.get? "k" = some (.string "x") := by
  have hvalue : (after reregistration).get? "k" = some (.integer 2) := by decide
  have hdefault : (after reregistration).defaults.get? "k" = some (.string "x") := by decide
  exact ⟨fun h => (nomatch h.values "k" _ _ hvalue hdefault), hvalue, hdefault⟩

end PocketCalculator.Settings.Registry
