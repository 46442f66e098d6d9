import PocketCalculator.Settings.Value

/-!
# Tables of settings

Values under keys, held in the order of the keys, which is by code points. The order is part of the
type, so a table is determined by what it holds under each key. `get?_insert` says what an insertion
changes.
-/

namespace PocketCalculator.Settings

/-- Values under distinct keys, the least key first. -/
structure Table where
  entries : List (String × Value)
  sorted : entries.Pairwise fun a b => a.1 < b.1
  deriving DecidableEq

namespace Table

def empty : Table :=
  ⟨[], .nil⟩

/-- The entries with `value` under `key`, in order if they were. -/
def insertEntry (key : String) (value : Value) : List (String × Value) → List (String × Value)
  | [] => [(key, value)]
  | (k, v) :: rest =>
    if key < k then (key, value) :: (k, v) :: rest
    else if k < key then (k, v) :: insertEntry key value rest
    -- The keys are equal, and the later value counts.
    else (key, value) :: rest

theorem mem_insertEntry {key : String} {value : Value} {entries : List (String × Value)}
    {e : String × Value} (h : e ∈ insertEntry key value entries) :
    e = (key, value) ∨ e ∈ entries := by
  induction entries with
  | nil => simpa [insertEntry] using h
  | cons entry rest ih =>
    obtain ⟨k, v⟩ := entry
    unfold insertEntry at h
    split at h
    · simpa using h
    · split at h
      · rcases List.mem_cons.1 h with rfl | h
        · exact .inr (List.mem_cons_self ..)
        · exact (ih h).imp_right (List.mem_cons_of_mem _)
      · rcases List.mem_cons.1 h with rfl | h
        · exact .inl rfl
        · exact .inr (List.mem_cons_of_mem _ h)

theorem pairwise_insertEntry (key : String) (value : Value) {entries : List (String × Value)}
    (h : entries.Pairwise fun a b => a.1 < b.1) :
    (insertEntry key value entries).Pairwise fun a b => a.1 < b.1 := by
  induction entries with
  | nil => simp [insertEntry]
  | cons entry rest ih =>
    obtain ⟨k, v⟩ := entry
    obtain ⟨hk, hrest⟩ := List.pairwise_cons.1 h
    unfold insertEntry
    split
    · next hlt =>
      refine List.pairwise_cons.2 ⟨fun e he => ?_, h⟩
      rcases List.mem_cons.1 he with rfl | he
      · exact hlt
      · exact String.lt_trans hlt (hk e he)
    · next hle =>
      split
      · next hlt =>
        refine List.pairwise_cons.2 ⟨fun e he => ?_, ih hrest⟩
        rcases mem_insertEntry he with rfl | he
        · exact hlt
        · exact hk e he
      · next hge =>
        have : key = k := String.le_antisymm (String.not_lt.1 hge) (String.not_lt.1 hle)
        exact List.pairwise_cons.2 ⟨fun e he => this ▸ hk e he, hrest⟩

def insert (t : Table) (key : String) (value : Value) : Table :=
  ⟨insertEntry key value t.entries, pairwise_insertEntry key value t.sorted⟩

def get? (t : Table) (key : String) : Option Value :=
  t.entries.lookup key

def keys (t : Table) : List String :=
  t.entries.map (·.1)

/-- The table of some entries. Of several values under one key the last counts. -/
def ofList (entries : List (String × Value)) : Table :=
  entries.foldl (fun t e => t.insert e.1 e.2) empty

/-! ## What a table holds -/

@[simp] theorem get?_empty (key : String) : empty.get? key = none := rfl

theorem lookup_cons (k other : String) (v : Value) (rest : List (String × Value)) :
    List.lookup other ((k, v) :: rest) = if other = k then some v else rest.lookup other := by
  by_cases h : other = k
  · subst h
    simp
  · rw [List.lookup_cons, beq_false_of_ne h, if_neg h]

theorem lookup_insertEntry (key other : String) (value : Value) (entries : List (String × Value)) :
    (insertEntry key value entries).lookup other
      = if other = key then some value else entries.lookup other := by
  induction entries with
  | nil => exact lookup_cons ..
  | cons entry rest ih =>
    obtain ⟨k, v⟩ := entry
    unfold insertEntry
    split
    · rw [lookup_cons]
    · next hle =>
      split
      · next hlt =>
        have hne : k ≠ key := fun h => String.lt_irrefl _ (h ▸ hlt)
        rw [lookup_cons, lookup_cons, ih]
        by_cases hk : other = k <;> simp [hk, hne]
      · next hge =>
        have : key = k := String.le_antisymm (String.not_lt.1 hge) (String.not_lt.1 hle)
        subst this
        rw [lookup_cons, lookup_cons]
        by_cases hk : other = key <;> simp [hk]

theorem get?_insert (t : Table) (key other : String) (value : Value) :
    (t.insert key value).get? other = if other = key then some value else t.get? other :=
  lookup_insertEntry ..

end Table

end PocketCalculator.Settings
