import Mathlib.Data.List.DropRight
import PocketCalculator.Proofs.Session.Refinement

/-!
# The history of a session

Of all that is asked of a session, only an evaluation of an entry that succeeds adds to the history, and
only a request to clear it takes anything out but what the limit drops (`records_step`). So the history
is the end of the list of such evaluations since it was last cleared, and each of its records can be had
again from the entry it names (`history_run`).
-/

namespace PocketCalculator

namespace Editor

/-- What is recorded of an evaluation of the editor: of one that succeeds, the entry with what is shown
for it. An overlay is no entry. -/
def success? (s : Editor) : Option Record :=
  match s.overlay with
  | some _ => none
  | none =>
    let result := Evaluation.ofText s.buffer.chars
    if result.isSuccess then some ⟨String.ofList s.buffer.chars, result.display⟩ else none

theorem success?_eq (s : Editor) :
    s.success? =
      if s.overlay.isNone && s.evaluate.isSuccess then
        some ⟨String.ofList s.buffer.chars, s.evaluate.display⟩
      else none := by
  obtain ⟨buffer, cursor, mode, layout, bracketCloses, overlay⟩ := s
  cases overlay <;> rfl

theorem success?_eq_some {s : Editor} {record : Record} (h : s.success? = some record) :
    (Evaluation.ofText record.expression.toList).isSuccess = true ∧
      (Evaluation.ofText record.expression.toList).display = record.result := by
  unfold success? at h
  split at h
  · cases h
  · dsimp only at h
    split at h
    · next hsuccess =>
      obtain rfl := Option.some.inj h
      rw [String.toList_ofList]
      exact ⟨hsuccess, rfl⟩
    · cases h

end Editor

namespace Session

variable {s : Session}

/-! ## Requests as actions -/

/-- The action that a request comes down to, if it is an input. -/
def action? (s : Session) : Request → Option Action
  | .event event => some (.edit event)
  | .key key => key.action? s.editor.cursor
  | .press label => Action.ofLabel? label
  | .setMode mode => if s.editor.mode = mode then none else some (.edit .modeToggle)
  | .evaluate => some .evaluate
  | .undo | .redo | .clearHistory => none

theorem step_of_action {request : Request} {action : Action} (h : s.action? request = some action) :
    s.step request = withOutcome (s.applyAction action) := by
  cases request with
  | event event =>
    obtain rfl := Option.some.inj h
    rfl
  | key key =>
    change key.action? s.editor.cursor = some action at h
    dsimp only [step, applyKey]
    rw [h]
  | press label =>
    change Action.ofLabel? label = some action at h
    dsimp only [step, press?]
    rw [h]
    rfl
  | setMode mode =>
    dsimp only [action?] at h
    dsimp only [step, setMode]
    split at h
    · cases h
    · next hmode =>
      obtain rfl := Option.some.inj h
      rw [if_neg hmode]
      rfl
  | evaluate =>
    obtain rfl := Option.some.inj h
    rfl
  | undo => cases h
  | redo => cases h
  | clearHistory => cases h

/-- What comes down to no action leaves the session as it is, or is about its stacks. -/
theorem fst_step_of_no_action {request : Request} (h : s.action? request = none) :
    (s.step request).1 = match request with
      | .undo => s.undo?.getD s
      | .redo => s.redo?.getD s
      | .clearHistory => s.clearHistory
      | _ => s := by
  cases request with
  | event event => cases h
  | key key =>
    change key.action? s.editor.cursor = none at h
    dsimp only [step, applyKey]
    rw [h]
    rfl
  | press label =>
    change Action.ofLabel? label = none at h
    dsimp only [step, press?]
    rw [h]
    rfl
  | setMode mode =>
    dsimp only [action?] at h
    dsimp only [step, setMode]
    split at h
    · next hmode =>
      rw [if_pos hmode]
      rfl
    · cases h
  | evaluate => cases h
  | undo => rfl
  | redo => rfl
  | clearHistory => rfl

/-! ## What a request does to the records -/

theorem records_moveTo (s : Session) (next : Editor) :
    (s.moveTo next).1.records = s.records ∧ (s.moveTo next).1.historyLimit = s.historyLimit := by
  unfold moveTo
  split <;> exact ⟨rfl, rfl⟩

/-- An evaluation records a success of the entry before anything is shown for it. -/
theorem records_evaluate (s : Session) :
    s.evaluate.1.records =
      (match s.editor.success? with
        | some record => push s.historyLimit record s.records
        | none => s.records) ∧
      s.evaluate.1.historyLimit = s.historyLimit := by
  rw [Editor.success?_eq]
  dsimp only [evaluate]
  split
  · exact records_moveTo (s.remember _) _
  · exact records_moveTo s _

theorem records_undo (s : Session) :
    (s.undo?.getD s).records = s.records ∧ (s.undo?.getD s).historyLimit = s.historyLimit := by
  unfold undo?
  split <;> exact ⟨rfl, rfl⟩

theorem records_redo (s : Session) :
    (s.redo?.getD s).records = s.records ∧ (s.redo?.getD s).historyLimit = s.historyLimit := by
  unfold redo?
  split <;> exact ⟨rfl, rfl⟩

/-- What a request to a session puts on record. -/
def recorded? (visit : Session × Request) : Option Record :=
  if visit.1.action? visit.2 = some .evaluate then visit.1.editor.success? else none

/-- **The history grows by successful evaluations alone.** -/
theorem records_step (s : Session) (request : Request) :
    (s.step request).1.records =
      (match recorded? (s, request) with
        | some record => push s.historyLimit record s.records
        | none => if request = .clearHistory then [] else s.records) ∧
      (s.step request).1.historyLimit = s.historyLimit := by
  cases haction : s.action? request with
  | some action =>
    have hinput : request ≠ .clearHistory := by
      rintro rfl
      cases haction
    rw [step_of_action haction]
    dsimp only [recorded?, withOutcome]
    rw [haction, if_neg hinput]
    cases action with
    | edit event =>
      rw [if_neg nofun]
      exact records_moveTo s _
    | evaluate =>
      rw [if_pos rfl]
      exact records_evaluate s
  | none =>
    rw [fst_step_of_no_action haction]
    dsimp only [recorded?]
    rw [haction, if_neg nofun]
    cases request with
    | undo => exact records_undo s
    | redo => exact records_redo s
    | _ => exact ⟨rfl, rfl⟩

theorem history_step {request : Request} (hquiet : s.action? request ≠ some .evaluate)
    (hkept : request ≠ .clearHistory) : (s.step request).1.history = s.history := by
  have hrecords := (records_step s request).1
  rw [recorded?, if_neg hquiet] at hrecords
  unfold history
  rw [hrecords]
  dsimp only
  rw [if_neg hkept]

/-! ## Whole runs -/

/-- The requests with the session that each is made to. -/
def visits (s : Session) : List Request → List (Session × Request)
  | [] => []
  | request :: rest => (s, request) :: (s.step request).1.visits rest

/-- What the requests since the history was last cleared put on record, the oldest first. -/
def successes (s : Session) (requests : List Request) : List Record :=
  ((s.visits requests).rtakeWhile fun visit => visit.2 ≠ .clearHistory).filterMap recorded?

theorem visits_concat (s : Session) (requests : List Request) (request : Request) :
    s.visits (requests ++ [request]) = s.visits requests ++ [(s.run requests, request)] := by
  induction requests generalizing s with
  | nil => rfl
  | cons first requests ih => exact congrArg ((s, first) :: ·) (ih (s.step first).1)

theorem successes_concat (s : Session) (requests : List Request) (request : Request) :
    s.successes (requests ++ [request]) =
      if request = .clearHistory then []
      else s.successes requests ++ (recorded? (s.run requests, request)).toList := by
  unfold successes
  rw [visits_concat]
  by_cases hclear : request = .clearHistory
  · rw [if_pos hclear, List.rtakeWhile_concat_neg _ _ _ (by simp [hclear])]
    rfl
  · rw [if_neg hclear, List.rtakeWhile_concat_pos _ _ _ (by simp [hclear]), List.filterMap_append]
    rfl

theorem run_concat (s : Session) (requests : List Request) (request : Request) :
    s.run (requests ++ [request]) = ((s.run requests).step request).1 :=
  run_append s requests [request]

/-- To drop the oldest at each addition leaves what dropping them all at the end leaves. -/
theorem take_cons_take {α : Type} (a : α) (l : List α) (n : Nat) :
    (a :: l.take n).take n = (a :: l).take n := by
  cases n with
  | zero => rfl
  | succ n => rw [List.take_succ_cons, List.take_succ_cons, List.take_take, Nat.min_eq_left n.le_succ]

theorem records_run (editor : Editor) (undoLimit historyLimit : Nat) (requests : List Request) :
    ((start editor undoLimit historyLimit).run requests).records =
        ((start editor undoLimit historyLimit).successes requests).reverse.take historyLimit ∧
      ((start editor undoLimit historyLimit).run requests).historyLimit = historyLimit := by
  generalize hstart : start editor undoLimit historyLimit = s
  induction requests using List.reverseRecOn with
  | nil =>
    rw [← hstart]
    exact ⟨List.take_nil.symm, rfl⟩
  | append_singleton requests request ih =>
    obtain ⟨hrecords, hlimit⟩ := ih
    obtain ⟨hstep, hstepLimit⟩ := records_step (s.run requests) request
    rw [run_concat, successes_concat, hstep]
    refine ⟨?_, hstepLimit.trans hlimit⟩
    rw [hlimit, hrecords]
    cases hrecorded : recorded? (s.run requests, request) with
    | none =>
      dsimp only
      split
      · exact List.take_nil.symm
      · rw [Option.toList_none, List.append_nil]
    | some record =>
      have hinput : request ≠ .clearHistory := by
        rintro rfl
        rw [recorded?, if_neg nofun] at hrecorded
        cases hrecorded
      dsimp only
      rw [if_neg hinput, Option.toList_some, List.reverse_append, List.reverse_singleton,
        List.singleton_append, push_eq_take (List.length_take_le ..), take_cons_take]

/-- **The history is the recent successes.** It is the end, as long as the limit allows, of the list of
successful evaluations since it was last cleared. What is neither an evaluation nor a request to clear
it leaves it as it is, and every record can be had again by evaluating its expression. -/
theorem history_run (editor : Editor) (undoLimit historyLimit : Nat) (requests : List Request) :
    let s := (start editor undoLimit historyLimit).run requests
    s.history = ((start editor undoLimit historyLimit).successes requests).rtake historyLimit ∧
      (∀ request, s.action? request ≠ some .evaluate → request ≠ .clearHistory →
        (s.step request).1.history = s.history) ∧
      ∀ record ∈ s.history,
        (Evaluation.ofText record.expression.toList).isSuccess = true ∧
          (Evaluation.ofText record.expression.toList).display = record.result := by
  intro s
  have hhistory : s.history =
      ((start editor undoLimit historyLimit).successes requests).rtake historyLimit := by
    rw [List.rtake_eq_reverse_take_reverse, history, (records_run ..).1]
  refine ⟨hhistory, fun request => history_step, fun record hmem => ?_⟩
  -- A record is one of a request to some session of the run.
  rw [hhistory, List.rtake_eq_reverse_take_reverse, List.mem_reverse] at hmem
  have hsuccess := List.mem_reverse.mp (List.mem_of_mem_take hmem)
  obtain ⟨visit, -, hrecorded⟩ := List.mem_filterMap.mp hsuccess
  unfold recorded? at hrecorded
  split at hrecorded
  · exact Editor.success?_eq_some hrecorded
  · cases hrecorded

end Session

end PocketCalculator
