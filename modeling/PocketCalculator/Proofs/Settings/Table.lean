import Mathlib.Data.List.Induction
import PocketCalculator.Settings.Table

/-!
# Entries of tables

A table holds under a key what its entries have there, each key once, and it is the table of its entries
(`ofList_entries`): each is put in behind those before it.
-/

namespace PocketCalculator.Settings.Table

theorem ext_entries {t u : Table} (h : t.entries = u.entries) : t = u := by
  cases t
  cases u
  cases h
  rfl

theorem nodup_keys (t : Table) : t.keys.Nodup := by
  rw [keys, List.Nodup, List.pairwise_map]
  refine t.sorted.imp fun {a b} hlt heq => ?_
  rw [heq] at hlt
  exact String.lt_irrefl _ hlt

/-- What is among the entries is held under its key. -/
theorem get?_of_mem {t : Table} {e : String × Value} (h : e ∈ t.entries) :
    t.get? e.1 = some e.2 := by
  obtain ⟨before, after, hsplit⟩ := List.append_of_mem h
  refine List.lookup_eq_some_iff.mpr ⟨before, after, hsplit, fun other hother => ?_⟩
  have hsorted := t.sorted
  rw [hsplit] at hsorted
  have hlt := (List.pairwise_append.mp hsorted).2.2 other hother e List.mem_cons_self
  exact bne_iff_ne.mpr fun heq => String.lt_irrefl _ (heq ▸ hlt)

/-! ## Tables of entries -/

/-- An entry behind all others is put at the end. -/
theorem insertEntry_of_forall_lt {key : String} (value : Value) {entries : List (String × Value)}
    (h : ∀ e ∈ entries, e.1 < key) : insertEntry key value entries = entries ++ [(key, value)] := by
  induction entries with
  | nil => rfl
  | cons e entries ih =>
    obtain ⟨hlt, hrest⟩ := List.forall_mem_cons.mp h
    have hge : ¬ key < e.1 := fun hgt => String.lt_irrefl _ (String.lt_trans hlt hgt)
    rw [insertEntry, if_neg hge, if_pos hlt, ih hrest]
    rfl

theorem entries_ofList {entries : List (String × Value)}
    (h : entries.Pairwise fun a b => a.1 < b.1) : (ofList entries).entries = entries := by
  induction entries using List.reverseRecOn with
  | nil => rfl
  | append_singleton entries e ih =>
    obtain ⟨hbefore, -, hlast⟩ := List.pairwise_append.mp h
    have hstep : ofList (entries ++ [e]) = (ofList entries).insert e.1 e.2 := by
      rw [ofList, List.foldl_append]
      rfl
    rw [hstep, insert]
    dsimp only
    rw [ih hbefore]
    exact insertEntry_of_forall_lt e.2 fun other hother =>
      hlast other hother e (List.mem_singleton.mpr rfl)

/-- **A table is the table of its entries.** -/
theorem ofList_entries (t : Table) : ofList t.entries = t :=
  ext_entries (entries_ofList t.sorted)

end PocketCalculator.Settings.Table
