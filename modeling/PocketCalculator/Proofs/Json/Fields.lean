import Mathlib.Data.List.Nodup
import PocketCalculator.Proofs.Json.RoundTrip

/-!
# Named fields

An object that is written with a value under each of some names gives the values back under these names,
if no name comes twice (`fields?_zip`). One with a single member is a name with what it holds.
-/

namespace PocketCalculator.Json

theorem kept_zip (names : List String) {values : List Json} (h : ∀ value ∈ values, Kept value) :
    Kept (object (names.zip values)) :=
  .object fun _ hmember => h _ (List.of_mem_zip hmember).2

/-- Under a name that comes once there is a single value. -/
theorem lookup?_of_mem {members : List (String × Json)} (hnames : (members.map (·.1)).Nodup)
    {name : String} {value : Json} (h : (name, value) ∈ members) :
    lookup? members name = some (some value) := by
  have hfilter : members.filter (·.1 = name) = [(name, value)] := by
    induction members with
    | nil => cases h
    | cons member members ih =>
      obtain ⟨hfirst, hrest⟩ := List.nodup_cons.mp hnames
      rcases List.mem_cons.mp h with rfl | h
      · have hnone : members.filter (·.1 = name) = [] := by
          rw [List.filter_eq_nil_iff]
          intro other hother heq
          exact hfirst (List.mem_map.mpr ⟨other, hother, of_decide_eq_true heq⟩)
        rw [List.filter_cons, if_pos (decide_eq_true rfl), hnone]
      · have hne : ¬ member.1 = name := fun heq =>
          hfirst (List.mem_map.mpr ⟨_, h, heq.symm⟩)
        rw [List.filter_cons, if_neg (by simpa using hne)]
        exact ih hrest h
  rw [lookup?, hfilter]

/-- **Fields are found under their names.** -/
theorem fields?_zip {names : List String} (hnames : names.Nodup) {values : List Json}
    (hlength : names.length = values.length) :
    (object (names.zip values)).fields? names = some (values.map some) := by
  have hkeys : ((names.zip values).map (·.1)).Nodup := by
    rw [List.map_fst_zip (Nat.le_of_eq hlength)]
    exact hnames
  -- Each name of the row is looked up in the whole object, so the row and the object are told apart.
  have hrow : ∀ members : List (String × Json),
      (∀ member ∈ names.zip values, lookup? members member.1 = some (some member.2)) →
      names.mapM (lookup? members) = some (values.map some) := by
    clear hkeys hnames
    intro members h
    induction names generalizing values with
    | nil =>
      rw [List.eq_nil_of_length_eq_zero hlength.symm]
      rfl
    | cons name names ih =>
      obtain ⟨value, values, rfl⟩ := List.exists_cons_of_length_pos
        (show 0 < values.length by rw [← hlength]; exact Nat.succ_pos _)
      rw [List.zip_cons_cons, List.forall_mem_cons] at h
      rw [List.mapM_cons, h.1, ih (Nat.succ.inj hlength) h.2]
      rfl
  exact hrow _ fun member hmember => lookup?_of_mem hkeys hmember

/-- A single member with something under it is a name that holds that. -/
theorem toCase?_object (name : String) {value : Json} (h : value ≠ null) :
    (object [(name, value)]).toCase? = some (.holding name value) := by
  cases value <;> first | rfl | exact absurd rfl h

theorem toNat?_integer {n limit : Nat} (h : n ≤ limit) : (integer n).toNat? limit = some n :=
  if_pos h

end PocketCalculator.Json
