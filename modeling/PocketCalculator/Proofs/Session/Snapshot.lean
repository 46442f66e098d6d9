import PocketCalculator.Proofs.Json.Fields
import PocketCalculator.Proofs.Session.History
import PocketCalculator.Proofs.Session.Overlay
import PocketCalculator.Proofs.Session.Safety

/-!
# Sessions and their snapshots

A snapshot whose counts are counts of 64 bits is read back from what is written of it
(`Snapshot.decode?_encode`), and an editor whose cursor stands in its entry and whose layout has a name is
restored from a snapshot as it was. Nothing that is asked of a session moves the cursor out of the entry
or changes the layout, and its two memories are no longer than their limits, so every session is restored
from what is written of it (`Session.restored_run`).
-/

namespace PocketCalculator

open Json (Kept)

/-! ## Written forms -/

theorem Mode.ofJson?_toJson (mode : Mode) : Mode.ofJson? mode.toJson = some mode := by
  cases mode <;> rfl

namespace EvalError

theorem kept_toJson (cause : EvalError) : Kept cause.toJson := by
  unfold toJson
  split
  · exact .string _
  · exact .object (List.forall_mem_singleton.mpr (.string _))

theorem toJson_ne_null (cause : EvalError) : cause.toJson ≠ .null := by
  unfold toJson
  split <;> exact nofun

theorem ofJson?_toJson (cause : EvalError) : ofJson? cause.toJson = some cause := by
  cases cause <;> rfl

end EvalError

namespace Overlay

theorem kept_toJsonOrNull (overlay : Option Overlay) : Kept (toJsonOrNull overlay) := by
  match overlay with
  | none => exact .null
  | some (literal text) => exact .object (List.forall_mem_singleton.mpr (.string text))
  | some (error cause) => exact .object (List.forall_mem_singleton.mpr cause.kept_toJson)

theorem ofJson?_toJson (overlay : Overlay) : ofJson? overlay.toJson = some overlay := by
  cases overlay with
  | literal text => rfl
  | error cause =>
    have hcase := Json.toCase?_object "Error" cause.toJson_ne_null
    rw [ofJson?, toJson, hcase]
    simp only [Option.bind_eq_bind, Option.bind_some, EvalError.ofJson?_toJson]
    rfl

theorem ofJsonOrNull?_toJsonOrNull (overlay : Option Overlay) :
    ofJsonOrNull? (toJsonOrNull overlay) = some overlay := by
  cases overlay with
  | none => rfl
  | some overlay =>
    have hread := ofJson?_toJson overlay
    cases overlay <;> exact congrArg (Option.map some) hread

end Overlay

namespace Snapshot

/-- The counts of the snapshot are counts of 64 bits. -/
structure Counted (s : Snapshot) : Prop where
  cursor : s.cursor ≤ countLimit
  undoDepth : s.undoDepth ≤ countLimit
  redoDepth : s.redoDepth ≤ countLimit
  historyLength : s.historyLength ≤ countLimit

theorem kept_toJson (s : Snapshot) : Kept s.toJson := by
  refine Json.kept_zip fieldNames ?_
  simp only [List.forall_mem_cons]
  exact ⟨.string _, .string _, .string _, .integer _, .bool _, Overlay.kept_toJsonOrNull _,
    .integer _, .integer _, .integer _, nofun⟩

theorem ofJson?_toJson {s : Snapshot} (h : s.Counted) : ofJson? s.toJson = some s := by
  rw [ofJson?, toJson, Json.fields?_zip (by decide) rfl]
  simp only [Option.bind_eq_bind, Option.bind_some, List.map_cons, List.map_nil, Option.getD_some,
    Mode.ofJson?_toJson, Overlay.ofJsonOrNull?_toJsonOrNull, Json.toNat?_integer h.cursor,
    Json.toNat?_integer h.undoDepth, Json.toNat?_integer h.redoDepth,
    Json.toNat?_integer h.historyLength]
  rfl

/-- **A snapshot is read back from what is written of it.** -/
theorem decode?_encode {s : Snapshot} (h : s.Counted) : decode? s.encode.toList = some s := by
  rw [decode?, encode, Json.compact, String.toList_ofList, Json.ofText?,
    Json.ofScanned?_write s.kept_toJson]
  exact ofJson?_toJson h

end Snapshot

/-! ## Restoring an editor -/

theorem Layout.ofName?_name {layout : Layout} (h : layout ∈ Layout.all) :
    Layout.ofName? layout.name = some layout := by
  have hall : ∀ layout ∈ Layout.all, Layout.ofName? layout.name = some layout := by decide
  exact hall layout h

namespace Session

theorem toEditor?_ofSession {s : Session} (hcursor : s.editor.CursorInside)
    (hlayout : s.editor.layout ∈ Layout.all) :
    (Snapshot.ofSession s).toEditor? = some s.editor := by
  have hlayout : Layout.ofName? (Snapshot.ofSession s).layout = some s.editor.layout :=
    Layout.ofName?_name hlayout
  have hbuffer : Buffer.ofChars (Snapshot.ofSession s).buffer.toList = s.editor.buffer := by
    rw [Snapshot.ofSession, String.toList_ofList, Buffer.ofChars_chars]
  rw [Snapshot.toEditor?, hlayout, Option.map_some, hbuffer]
  dsimp only [Snapshot.ofSession]
  rw [Nat.min_eq_left hcursor]

end Session

namespace Editor

theorem layout_apply (s : Editor) (event : Event) : (s.apply event).layout = s.layout := by
  have hperform : ∀ t : Editor, (t.perform event).layout = t.layout := by
    intro t
    have hsetting := congrArg (·.2.1) (setting_perform t event)
    cases event <;> exact hsetting
  rcases apply_eq_or s event with h | h
  · rw [h]
  · rw [h, edit]
    split
    · exact hperform s.reset
    · exact hperform s

theorem layout_act (s : Editor) (action : Action) : (s.act action).layout = s.layout := by
  cases action with
  | edit event => exact layout_apply s event
  | evaluate =>
    dsimp only [act]
    cases s.evaluate <;> rfl

end Editor

namespace Session

/-! ## Whole runs -/

/-- What every action keeps holds of all editors of a session, if it did before. -/
theorem forall_editors_run {P : Editor → Prop} (keeps : ∀ e action, P e → P (Editor.act e action))
    {s : Session} (h : ∀ e ∈ s.editors, P e) (requests : List Request) :
    ∀ e ∈ (s.run requests).editors, P e := by
  induction requests generalizing s with
  | nil => exact h
  | cons request requests ih =>
    refine ih fun e he => ?_
    rcases mem_editors_step he with he | ⟨action, rfl⟩
    · exact h e he
    · exact keeps _ action (h _ s.editor_mem_editors)

section Run

variable (editor : Editor) (undoLimit historyLimit : Nat) (requests : List Request)

/-- Both stacks together are no longer than the limit of the one. -/
theorem length_stacks_run :
    let s := (start editor undoLimit historyLimit).run requests
    s.past.length + s.future.length ≤ undoLimit := by
  intro s
  have hvalid : (Timeline.start editor).Valid undoLimit := .start undoLimit editor
  have hrow : s.timeline = (Timeline.start editor).run undoLimit requests :=
    (timeline_run (start editor undoLimit historyLimit) requests).1
  have hbound := (hvalid.run requests).bounded
  rw [← hrow, length_timeline] at hbound
  omega

theorem length_records_run :
    ((start editor undoLimit historyLimit).run requests).records.length ≤ historyLimit := by
  rw [(records_run editor undoLimit historyLimit requests).1]
  exact List.length_take_le ..

end Run

/-- **A session is restored from what is written of it.** Whatever is asked of a session on one of the
layouts, if its cursor and its limits are counts of 64 bits then its snapshot is read back from what is
written of it, and the editor restored from that is the editor of the session. -/
theorem restored_run (mode : Mode) {layout : Layout} (hlayout : layout ∈ Layout.all)
    {undoLimit historyLimit : Nat} (hundo : undoLimit ≤ Snapshot.countLimit)
    (hhistory : historyLimit ≤ Snapshot.countLimit) (requests : List Request) :
    let s := (start { Editor.initial with mode, layout } undoLimit historyLimit).run requests
    let text := (Snapshot.ofSession s).encode.toList
    s.editor.cursor ≤ Snapshot.countLimit →
      Snapshot.decode? text = some (Snapshot.ofSession s) ∧
        (Snapshot.decode? text).bind Snapshot.toEditor? = some s.editor := by
  intro s text hcursor
  have hkept : ∀ e ∈ s.editors, e.CursorInside ∧ e.layout = layout := by
    refine forall_editors_run (P := fun e => e.CursorInside ∧ e.layout = layout) ?_ ?_ requests
    · intro e action he
      refine ⟨?_, (e.layout_act action).trans he.2⟩
      cases action with
      | edit event => exact Editor.cursorInside_apply he.1 event
      | evaluate => exact Editor.cursorInside_commit he.1 _
    · intro e he
      rw [List.mem_singleton.mp he]
      exact ⟨Nat.le_refl _, rfl⟩
  obtain ⟨hinside, hsame⟩ := hkept s.editor s.editor_mem_editors
  have hstacks : s.past.length + s.future.length ≤ undoLimit := length_stacks_run ..
  have hrecords : s.records.length ≤ historyLimit := length_records_run ..
  have hcounted : (Snapshot.ofSession s).Counted :=
    ⟨hcursor, show s.past.length ≤ _ by omega, show s.future.length ≤ _ by omega,
      Nat.le_trans hrecords hhistory⟩
  have hread : Snapshot.decode? text = some (Snapshot.ofSession s) :=
    Snapshot.decode?_encode hcounted
  rw [hread]
  exact ⟨rfl, toEditor?_ofSession hinside (hsame ▸ hlayout)⟩

/-- With a message laid over the entry, a record of it, and a step that was undone. -/
theorem restored_message :
    let requests : List Request := [.event (.digit '8'), .event (.digit '9'), .event (.digit '7'),
      .event (.digit '7'), .evaluate, .event .bracket, .undo]
    let s := (start { Editor.initial with mode := .scientific, layout := .keyboard } 100 50).run
      requests
    let text := (Snapshot.ofSession s).encode.toList
    (Layout.keyboard ∈ Layout.all ∧ 100 ≤ Snapshot.countLimit ∧ 50 ≤ Snapshot.countLimit ∧
        s.editor.cursor ≤ Snapshot.countLimit) ∧
      s.editor.overlay = some (.literal Evaluation.secretMessage) ∧ s.future.length = 1 ∧
      Snapshot.decode? text = some (Snapshot.ofSession s) ∧
      (Snapshot.decode? text).bind Snapshot.toEditor? = some s.editor := by
  intro requests s text
  have hlayout : Layout.keyboard ∈ Layout.all := by decide
  have hundo : 100 ≤ Snapshot.countLimit := by decide
  have hhistory : 50 ≤ Snapshot.countLimit := by decide
  have hcursor : s.editor.cursor = 4 := rfl
  have hcount : s.editor.cursor ≤ Snapshot.countLimit := by
    rw [hcursor]
    decide
  exact ⟨⟨hlayout, hundo, hhistory, hcount⟩, rfl, rfl,
    restored_run .scientific hlayout hundo hhistory requests hcount⟩

end Session

end PocketCalculator
