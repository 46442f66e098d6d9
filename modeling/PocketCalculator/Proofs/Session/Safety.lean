import PocketCalculator.Proofs.Editor.Safety
import PocketCalculator.Proofs.Session.Timeline

/-!
# Safe sessions

A session only ever holds editors that an action led to (`mem_editors_step`), so what no action gives
up holds of all of them, in both stacks. `editing_safe` is the safety of editors and of sessions.
-/

namespace PocketCalculator

namespace Session

/-- All editors that a session holds. -/
def editors (s : Session) : List Editor :=
  s.past ++ s.editor :: s.future

theorem editor_mem_editors (s : Session) : s.editor ∈ s.editors :=
  List.mem_append_right _ List.mem_cons_self

theorem mem_editors_moveTo {s : Session} {next e : Editor} (h : e ∈ (s.moveTo next).1.editors) :
    e ∈ s.editors ∨ e = next := by
  unfold moveTo at h
  split at h
  · exact .inl h
  · rcases List.mem_append.mp h with hpast | hrest
    · rcases List.mem_cons.mp (mem_of_mem_push hpast) with rfl | hpast
      · exact .inl s.editor_mem_editors
      · exact .inl (List.mem_append_left _ hpast)
    · exact .inr (List.mem_singleton.mp hrest)

theorem mem_editors_applyAction {s : Session} {action : Action} {e : Editor}
    (h : e ∈ (s.applyAction action).1.editors) : e ∈ s.editors ∨ e = s.editor.act action := by
  cases action with
  | edit event => exact mem_editors_moveTo h
  | evaluate =>
    dsimp only [applyAction, evaluate] at h
    split at h
    · exact mem_editors_moveTo (s := s.remember _) h
    · exact mem_editors_moveTo h

/-- Undoing and redoing only hands editors from one stack to the other. -/
theorem mem_editors_undo {s : Session} {e : Editor} :
    (e ∈ (s.undo?.getD s).editors ↔ e ∈ s.editors) ∧
      (e ∈ (s.redo?.getD s).editors ↔ e ∈ s.editors) := by
  obtain ⟨editor, past, future, records, undoLimit, historyLimit⟩ := s
  constructor
  · cases past with
    | nil => exact Iff.rfl
    | cons previous past =>
      simp only [undo?, Option.getD_some, editors, List.mem_append, List.mem_cons]
      tauto
  · cases future with
    | nil => exact Iff.rfl
    | cons next future =>
      simp only [redo?, Option.getD_some, editors, List.mem_append, List.mem_cons]
      tauto

/-- A request brings in no editor but one that an action leads to. -/
theorem mem_editors_step {s : Session} {request : Request} {e : Editor}
    (h : e ∈ (s.step request).1.editors) : e ∈ s.editors ∨ ∃ action, e = s.editor.act action := by
  have haction : ∀ action, e ∈ (s.applyAction action).1.editors →
      e ∈ s.editors ∨ ∃ action, e = s.editor.act action :=
    fun action h => (mem_editors_applyAction h).imp_right fun he => ⟨action, he⟩
  cases request with
  | event event => exact haction (.edit event) h
  | key key =>
    dsimp only [step, withOutcome, applyKey] at h
    split at h
    · next action _ => exact haction action h
    · exact .inl h
  | press label =>
    dsimp only [step, press?] at h
    cases hlabel : Action.ofLabel? label with
    | none =>
      rw [hlabel] at h
      exact .inl h
    | some action =>
      rw [hlabel] at h
      exact haction action h
  | setMode mode =>
    dsimp only [step, withOutcome, setMode] at h
    split at h
    · exact .inl h
    · exact haction (.edit .modeToggle) h
  | evaluate => exact haction .evaluate h
  | undo => exact .inl (mem_editors_undo.1.mp h)
  | redo => exact .inl (mem_editors_undo.2.mp h)
  | clearHistory => exact .inl h

/-! ## Whole runs -/

/-- What is done to a session: requests, and the settings that it is built with. -/
inductive Operation where
  | request (request : Request)
  | withMode (mode : Mode)
  | withLayout (layout : Layout)
  | withUndoLimit (limit : Nat)
  | withHistoryLimit (limit : Nat)

def operate (s : Session) : Operation → Session
  | .request request => (s.step request).1
  | .withMode mode => { s with editor := { s.editor with mode } }
  | .withLayout layout => { s with editor := { s.editor with layout } }
  | .withUndoLimit limit => { s with undoLimit := limit }
  | .withHistoryLimit limit => { s with historyLimit := limit }

def operateAll (s : Session) (operations : List Operation) : Session :=
  operations.foldl operate s

/-- What every operation on editors keeps holds of all editors of a session, if it did before. -/
theorem forall_editors_operateAll {P : Editor → Prop}
    (keeps : ∀ e operation, P e → P (Editor.operate e operation)) {s : Session}
    (h : ∀ e ∈ s.editors, P e) (operations : List Operation) :
    ∀ e ∈ (s.operateAll operations).editors, P e := by
  induction operations generalizing s with
  | nil => exact h
  | cons operation operations ih =>
    refine ih fun e he => ?_
    have hcurrent := h _ s.editor_mem_editors
    -- A mode or a layout is set in place: the stacks stay, and only the current editor is another.
    have hset : ∀ editor, P editor → e ∈ s.past ++ editor :: s.future → P e := by
      intro editor heditor he
      rcases List.mem_append.mp he with he | he
      · exact h e (List.mem_append_left _ he)
      · rcases List.mem_cons.mp he with rfl | he
        · exact heditor
        · exact h e (List.mem_append_right _ (List.mem_cons_of_mem _ he))
    cases operation with
    | request request =>
      rcases mem_editors_step he with he | ⟨action, rfl⟩
      · exact h e he
      · cases action with
        | edit event => exact keeps _ (.event event) hcurrent
        | evaluate => exact keeps _ .evaluate hcurrent
    | withMode mode => exact hset _ (keeps _ (.withMode mode) hcurrent) he
    | withLayout layout => exact hset _ (keeps _ (.withLayout layout) hcurrent) he
    | withUndoLimit limit => exact h e he
    | withHistoryLimit limit => exact h e he

end Session

/-- **Editing is safe.** Every editor that operations lead to from a new one, from a text or from a
snapshot is safe, and its entry is well shaped if the first one was well formed. Every editor in the
stacks of a session is safe and has a well-shaped entry, whatever is asked of the session. -/
theorem editing_safe :
    (∀ (origin : Editor) (operations : List Editor.Operation), Editor.Origin origin →
      (origin.run operations).Safe ∧
        (origin.buffer.isWellFormed = true →
          Buffer.WellShaped (origin.run operations).buffer.chars)) ∧
    ∀ (mode : Mode) (layout : Layout) (undoLimit historyLimit : Nat)
      (operations : List Session.Operation),
      ∀ e ∈ ((Session.start { Editor.initial with mode, layout } undoLimit historyLimit).operateAll
        operations).editors, e.Safe ∧ Buffer.WellShaped e.buffer.chars := by
  constructor
  · intro origin operations horigin
    refine ⟨(Editor.cursorInside_run horigin.cursorInside operations).safe, fun h => ?_⟩
    exact (Buffer.isWellFormed_iff _).mp (Editor.isWellFormed_run h operations)
  · intro mode layout undoLimit historyLimit operations
    have hkept := Session.forall_editors_operateAll
      (P := fun e => e.CursorInside ∧ e.buffer.isWellFormed = true)
      (fun e operation he => ⟨Editor.cursorInside_operate he.1 operation,
        Editor.isWellFormed_operate he.2 operation⟩)
      (s := Session.start { Editor.initial with mode, layout } undoLimit historyLimit) (by
        intro e he
        rw [List.mem_singleton.mp he]
        exact ⟨Nat.le_refl _, rfl⟩) operations
    intro e he
    obtain ⟨hcursor, hformed⟩ := hkept e he
    exact ⟨hcursor.safe, (Buffer.isWellFormed_iff _).mp hformed⟩

end PocketCalculator
