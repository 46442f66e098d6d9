import PocketCalculator.Proofs.Json.Fields
import PocketCalculator.Proofs.Settings.Table
import PocketCalculator.Proofs.Text.Utf8
import PocketCalculator.Settings.File

/-!
# Settings files are read back

What is written of settings is a value all of which is kept, so it is read back as the value it was, and
that as the settings: integers of 64 bits, texts of any characters, and the entries of a table in their
order (`File.ofJson?_toJson`). Only a file of another version is refused, by its version
(`File.decode_written`).
-/

namespace PocketCalculator.Settings

open Json (Kept)

namespace Value

theorem kept_toJson (value : Value) : Kept value.toJson := by
  cases value with
  | integer n => exact .object (List.forall_mem_singleton.mpr (.integer n.toInt))
  | string text => exact .object (List.forall_mem_singleton.mpr (.string text))

theorem inRange_toInt (n : Int64) : inRange n.toInt = true := by
  rw [inRange, Bool.and_eq_true, decide_eq_true_eq, decide_eq_true_eq]
  exact ⟨n.minValue_le_toInt, n.toInt_le⟩

theorem ofJson?_toJson (value : Value) : ofJson? value.toJson = some value := by
  cases value with
  | integer n =>
    have hcase : (integer n).toJson.toCase? = some (.holding "Integer" (.integer n.toInt)) := rfl
    rw [ofJson?, hcase]
    simp only [Option.bind_eq_bind, Option.bind_some, Json.toInt?, inRange_toInt, if_true,
      Int64.ofInt_toInt]
  | string text => rfl

end Value

namespace Table

theorem kept_toJson (t : Table) : Kept t.toJson := by
  refine .object fun member hmember => ?_
  obtain ⟨e, -, rfl⟩ := List.mem_map.mp hmember
  exact e.2.kept_toJson

theorem ofJson?_toJson (t : Table) : ofJson? t.toJson = some t := by
  have hall : ∀ entries : List (String × Value),
      (entries.map fun e => (e.1, e.2.toJson)).mapM entryOfJson? = some entries := by
    intro entries
    induction entries with
    | nil => rfl
    | cons e entries ih =>
      have hfirst : entryOfJson? (e.1, e.2.toJson) = some e := by
        rw [entryOfJson?, Value.ofJson?_toJson]
        rfl
      rw [List.map_cons, List.mapM_cons, hfirst, ih]
      rfl
  rw [toJson, ofJson?, hall]
  exact congrArg some t.ofList_entries

end Table

namespace File

theorem kept_toJson (f : File) : Kept f.toJson := by
  refine Json.kept_zip fieldNames ?_
  simp only [List.forall_mem_cons]
  exact ⟨.integer _, f.overrides.kept_toJson, nofun⟩

theorem ofJson?_toJson (f : File) : ofJson? f.toJson = some f := by
  have hversion : f.version.toNat ≤ UInt32.size - 1 := Nat.le_sub_one_of_lt f.version.toNat_lt_size
  rw [ofJson?, toJson, Json.fields?_zip (by decide) rfl]
  simp only [Option.bind_eq_bind, Option.bind_some, List.map_cons, List.map_nil,
    Json.toNat?_integer hversion, Table.ofJson?_toJson, UInt32.ofNat_toNat]
  rfl

theorem ofScanned?_encode (f : File) :
    Json.ofScanned? (f.encode.toList.map some) = some f.toJson := by
  rw [encode, Json.pretty, String.toList_ofList]
  exact Json.ofScanned?_write f.kept_toJson (.lines 0)

theorem decode_encode (f : File) :
    decode (f.encode.toList.map some) =
      if f.version = currentVersion then .ok f else .error (.unsupportedVersion f.version) := by
  rw [decode, f.ofScanned?_encode, Option.bind_eq_bind, Option.bind_some, f.ofJson?_toJson]

theorem decodeOrEmpty_encode (f : File) :
    decodeOrEmpty (f.encode.toList.map some) = if f.version = currentVersion then f else .empty := by
  rw [decodeOrEmpty, f.decode_encode]
  by_cases hversion : f.version = currentVersion
  · rw [if_pos hversion, if_pos hversion]
  · rw [if_neg hversion, if_neg hversion]

/-- **Settings are read back from their file.** A file of the current version holds what was written to
it, and so does the file that is made for any overrides; one of another version is refused by that
version, and read as empty where refusals are passed over. -/
theorem decode_written (f : File) :
    let content := Text.Utf8.decode (Text.Utf8.encode f.encode.toList)
    decode content =
        (if f.version = currentVersion then .ok f else .error (.unsupportedVersion f.version)) ∧
      decodeOrEmpty content = (if f.version = currentVersion then f else .empty) ∧
      ∀ overrides : Table,
        let made := Text.Utf8.decode (Text.Utf8.encode (ofTable overrides).encode.toList)
        (decode made).map (·.overrides) = .ok overrides ∧
          (decodeOrEmpty made).overrides = overrides := by
  dsimp only
  rw [Text.Utf8.decode_encode]
  refine ⟨f.decode_encode, f.decodeOrEmpty_encode, fun overrides => ?_⟩
  rw [Text.Utf8.decode_encode, decode_encode, decodeOrEmpty_encode]
  exact ⟨rfl, rfl⟩

end File

end PocketCalculator.Settings
