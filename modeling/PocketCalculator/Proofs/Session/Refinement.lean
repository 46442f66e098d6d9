import PocketCalculator.Proofs.Session.Timeline

/-!
# Undo and redo as a timeline

A session keeps its editors in two stacks. Read from the oldest to the newest they are a `Timeline`
(`Session.timeline`), and every request to the session is a step of that row (`timeline_step`).
`run_follows` draws the consequences for whole runs.
-/

namespace PocketCalculator

namespace Session

/-! ## Sessions as rows -/

/-- The editors of a session in their order, with the current one in its place. -/
def timeline (s : Session) : Timeline :=
  ⟨s.past.reverse ++ s.editor :: s.future, s.past.length, by simp⟩

@[simp] theorem current_timeline (s : Session) : s.timeline.current = s.editor := by
  simp [timeline, Timeline.current]

theorem length_timeline (s : Session) :
    s.timeline.states.length = s.past.length + s.future.length + 1 := by
  simp [timeline]
  omega

theorem states_append_timeline (s : Session) (next : Editor) :
    (s.timeline.append next).states = (s.editor :: s.past).reverse ++ [next] := by
  have htake : s.timeline.states.take (s.past.length + 1) = (s.editor :: s.past).reverse := by
    simp [timeline, List.take_append, List.take_of_length_le]
  exact congrArg (· ++ [next]) htake

/-- To push on a full stack and to trim the row drop the same editor, however full it is. -/
theorem timeline_moveTo (s : Session) (next : Editor) :
    (s.moveTo next).1.timeline = s.timeline.advance s.undoLimit next := by
  unfold moveTo Timeline.advance
  rw [current_timeline]
  split
  · rfl
  · have hcut := states_append_timeline s next
    have hindex : (s.timeline.append next).index = (s.editor :: s.past).length := rfl
    by_cases hfull : s.undoLimit < (s.editor :: s.past).length
    · have hpush : push s.undoLimit s.editor s.past = (s.editor :: s.past).dropLast :=
        if_pos hfull
      ext1
      · rw [Timeline.states_trim hfull, hcut]
        change (push s.undoLimit s.editor s.past).reverse ++ [next] = _
        rw [hpush, List.drop_append_of_le_length (by simp), List.drop_one, List.tail_reverse]
      · rw [Timeline.index_trim hfull, hindex]
        change (push s.undoLimit s.editor s.past).length = _
        rw [hpush, List.length_dropLast]
    · have hpush : push s.undoLimit s.editor s.past = s.editor :: s.past := if_neg hfull
      rw [Timeline.trim_of_le (Nat.le_of_not_lt hfull)]
      ext1
      · rw [hcut]
        change (push s.undoLimit s.editor s.past).reverse ++ [next] = _
        rw [hpush]
      · rw [hindex]
        change (push s.undoLimit s.editor s.past).length = _
        rw [hpush]

/-- The row is all that a session keeps of its editors. -/
theorem eq_of_timeline_eq {s s' : Session} (h : s'.timeline = s.timeline) :
    s'.editor = s.editor ∧ s'.past = s.past ∧ s'.future = s.future := by
  obtain ⟨hstates, hindex⟩ := Timeline.ext_iff.mp h
  obtain ⟨hpast, hrest⟩ := List.append_inj hstates (by simpa [timeline] using hindex)
  obtain ⟨heditor, hfuture⟩ := List.cons.inj hrest
  exact ⟨heditor, List.reverse_injective hpast, hfuture⟩

/-! ## Requests as steps of the row -/

@[simp] theorem moveTo_self (s : Session) : s.moveTo s.editor = (s, .unchanged) :=
  if_pos rfl

/-- A record is no part of the row. -/
theorem timeline_moveTo_remember (s : Session) (record : Record) (next : Editor) :
    ((s.remember record).moveTo next).1.timeline = (s.moveTo next).1.timeline := by
  by_cases h : next = s.editor
  · rw [moveTo, moveTo, if_pos h, if_pos (show next = (s.remember record).editor from h)]
    rfl
  · rw [moveTo, moveTo, if_neg h, if_neg (show ¬ next = (s.remember record).editor from h)]
    rfl

theorem timeline_applyAction (s : Session) (action : Action) :
    (s.applyAction action).1.timeline = (s.moveTo (s.editor.act action)).1.timeline := by
  cases action with
  | edit event => rfl
  | evaluate =>
    dsimp only [applyAction, evaluate, Editor.act]
    split
    · exact timeline_moveTo_remember s _ _
    · rfl

theorem timeline_input {s : Session} {request : Request} {next : Editor}
    (h : s.editor.target? request = some next) :
    (s.step request).1.timeline = (s.moveTo next).1.timeline := by
  cases request with
  | event event =>
    obtain rfl := Option.some.inj h
    exact timeline_applyAction s (.edit event)
  | key key =>
    obtain rfl := Option.some.inj h
    dsimp only [step, withOutcome, applyKey]
    cases key.action? s.editor.cursor with
    | none => exact congrArg (timeline ·.1) (moveTo_self s).symm
    | some action => exact timeline_applyAction s action
  | press label =>
    obtain rfl := Option.some.inj h
    dsimp only [step, press?]
    cases Action.ofLabel? label with
    | none => exact congrArg (timeline ·.1) (moveTo_self s).symm
    | some action => exact timeline_applyAction s action
  | setMode mode =>
    obtain rfl := Option.some.inj h
    dsimp only [step, withOutcome, setMode]
    split
    · exact congrArg (timeline ·.1) (moveTo_self s).symm
    · exact timeline_applyAction s (.edit .modeToggle)
  | evaluate =>
    obtain rfl := Option.some.inj h
    exact timeline_applyAction s .evaluate
  | undo => cases h
  | redo => cases h
  | clearHistory => cases h

theorem timeline_undo (s : Session) :
    (s.undo?.getD s).timeline = s.timeline.back?.getD s.timeline := by
  obtain ⟨editor, past, future, records, undoLimit, historyLimit⟩ := s
  cases past with
  | nil => rfl
  | cons previous past => ext1 <;> simp [undo?, Timeline.back?, timeline]

theorem timeline_redo (s : Session) :
    (s.redo?.getD s).timeline = s.timeline.forth?.getD s.timeline := by
  obtain ⟨editor, past, future, records, undoLimit, historyLimit⟩ := s
  cases future with
  | nil => simp [redo?, Timeline.forth?, timeline]
  | cons next future => ext1 <;> simp [redo?, Timeline.forth?, timeline]

/-- **A request to a session is a step of its row.** -/
theorem timeline_step (s : Session) (request : Request) :
    (s.step request).1.timeline = s.timeline.step s.undoLimit request := by
  unfold Timeline.step
  rw [current_timeline]
  split
  · next next htarget => rw [timeline_input htarget, timeline_moveTo]
  · next htarget =>
    cases request with
    | undo => exact timeline_undo s
    | redo => exact timeline_redo s
    | clearHistory => rfl
    | _ => cases htarget

theorem undoLimit_moveTo (s : Session) (next : Editor) :
    (s.moveTo next).1.undoLimit = s.undoLimit := by
  unfold moveTo
  split <;> rfl

theorem undoLimit_applyAction (s : Session) (action : Action) :
    (s.applyAction action).1.undoLimit = s.undoLimit := by
  cases action with
  | edit event => exact undoLimit_moveTo s _
  | evaluate =>
    dsimp only [applyAction, evaluate]
    rw [undoLimit_moveTo]
    split <;> rfl

theorem undoLimit_step (s : Session) (request : Request) :
    (s.step request).1.undoLimit = s.undoLimit := by
  cases request with
  | event event => exact undoLimit_applyAction s (.edit event)
  | key key =>
    dsimp only [step, withOutcome, applyKey]
    cases key.action? s.editor.cursor with
    | none => rfl
    | some action => exact undoLimit_applyAction s action
  | press label =>
    dsimp only [step, press?]
    cases Action.ofLabel? label with
    | none => rfl
    | some action => exact undoLimit_applyAction s action
  | setMode mode =>
    dsimp only [step, withOutcome, setMode]
    split
    · rfl
    · exact undoLimit_applyAction s (.edit .modeToggle)
  | evaluate => exact undoLimit_applyAction s .evaluate
  | undo =>
    dsimp only [step, undo?]
    split <;> rfl
  | redo =>
    dsimp only [step, redo?]
    split <;> rfl
  | clearHistory => rfl

/-- A run of requests is a run of the row. -/
theorem timeline_run (s : Session) (requests : List Request) :
    (s.run requests).timeline = s.timeline.run s.undoLimit requests ∧
      (s.run requests).undoLimit = s.undoLimit := by
  induction requests generalizing s with
  | nil => exact ⟨rfl, rfl⟩
  | cons request requests ih =>
    have hlimit := undoLimit_step s request
    obtain ⟨hrun, hrunLimit⟩ := ih (s.step request).1
    refine ⟨?_, hrunLimit.trans hlimit⟩
    rw [timeline_step, hlimit] at hrun
    exact hrun

/-! ## There and back -/

theorem run_append (s : Session) (first second : List Request) :
    s.run (first ++ second) = (s.run first).run second :=
  List.foldl_append

theorem exists_undo {s : Session} (h : s.past ≠ []) :
    ∃ s', s.undo? = some s' ∧ s'.past.length + 1 = s.past.length ∧ s'.redo? = some s := by
  obtain ⟨editor, past, future, records, undoLimit, historyLimit⟩ := s
  cases past with
  | nil => exact absurd rfl h
  | cons previous past => exact ⟨_, rfl, rfl, rfl⟩

/-- As many redos as undos restore the session. -/
theorem run_undo_redo {s : Session} {count : Nat} (h : count ≤ s.past.length) :
    s.run (List.replicate count .undo ++ List.replicate count .redo) = s := by
  induction count generalizing s with
  | zero => rfl
  | succ count ih =>
    -- The first undo and the last redo are inverse; between them the session is `s'`.
    have hpast : 0 < s.past.length := Nat.lt_of_lt_of_le (Nat.succ_pos _) h
    obtain ⟨s', hundo, hlength, hredo⟩ := exists_undo (List.length_pos_iff.mp hpast)
    have hfirst : (s.step .undo).1 = s' := by
      dsimp only [step]
      rw [hundo, Option.getD_some]
    have hlast : (s'.step .redo).1 = s := by
      dsimp only [step]
      rw [hredo, Option.getD_some]
    have hinner := ih (s := s') (by omega)
    calc s.run (List.replicate (count + 1) .undo ++ List.replicate (count + 1) .redo)
        = ((s.step .undo).1.run (List.replicate count .undo ++ List.replicate count .redo)).run
            [.redo] := by
          rw [← run_append, List.append_assoc, ← List.replicate_succ', List.replicate_succ]
          rfl
      _ = s'.run [.redo] := by rw [hfirst, hinner]
      _ = s := hlast

/-! ## Whole runs -/

/-- The session behaves as the row does, within the limit. -/
structure Follows (s : Session) (limit : Nat) (t : Timeline) : Prop where
  row : s.timeline = t
  current : s.editor = t.current
  undoDepth : s.past.length = t.index
  redoDepth : t.index + 1 + s.future.length = t.states.length
  bounded : s.past.length + s.future.length ≤ limit
  distinct : t.states.IsChain (· ≠ ·)
  /-- Every request is a step of the row. -/
  step : ∀ request, (s.step request).1.timeline = t.step limit request
  /-- An input that leads nowhere else leaves everything as it is. -/
  idle : ∀ request, s.editor.target? request = some s.editor →
    (s.step request).1.editor = s.editor ∧ (s.step request).1.past = s.past ∧
      (s.step request).1.future = s.future
  undoReply : (s.step .undo).2 = .moved (decide (0 < t.index))
  redoReply : (s.step .redo).2 = .moved (decide (t.index + 1 < t.states.length))
  /-- A move along the row changes the editor, and a move that fails changes nothing. -/
  undoEffect : if 0 < t.index then (s.step .undo).1.editor ≠ s.editor else (s.step .undo).1 = s
  redoEffect : if t.index + 1 < t.states.length then (s.step .redo).1.editor ≠ s.editor
    else (s.step .redo).1 = s
  restored : ∀ count ≤ s.past.length,
    s.run (List.replicate count .undo ++ List.replicate count .redo) = s

/-- The neighbours of the current editor are others. -/
theorem ne_editor_of_valid {s : Session} {limit : Nat} (h : s.timeline.Valid limit) :
    (∀ previous ∈ s.past.head?, previous ≠ s.editor) ∧
      ∀ next ∈ s.future.head?, next ≠ s.editor := by
  obtain ⟨-, hrest, hjoin⟩ := List.isChain_append.mp h.distinct
  constructor
  · intro previous hp
    exact hjoin previous (by simpa using hp) s.editor rfl
  · intro next hn
    exact ((List.isChain_cons.mp hrest).1 next hn).symm

theorem follows_timeline {s : Session} (h : s.timeline.Valid s.undoLimit) :
    s.Follows s.undoLimit s.timeline where
  row := rfl
  current := (current_timeline s).symm
  undoDepth := rfl
  redoDepth := by
    rw [length_timeline]
    change s.past.length + 1 + s.future.length = _
    omega
  bounded := by
    have hbound := h.bounded
    rw [length_timeline] at hbound
    omega
  distinct := h.distinct
  step := timeline_step s
  idle := by
    intro request htarget
    refine eq_of_timeline_eq ?_
    rw [timeline_input htarget, moveTo_self]
  undoReply := by
    obtain ⟨editor, past, future, records, undoLimit, historyLimit⟩ := s
    cases past <;> rfl
  redoReply := by
    rw [length_timeline]
    obtain ⟨editor, past, future, records, undoLimit, historyLimit⟩ := s
    cases future <;> simp [Session.step, redo?, timeline]
  undoEffect := by
    obtain ⟨hback, -⟩ := ne_editor_of_valid h
    obtain ⟨editor, past, future, records, undoLimit, historyLimit⟩ := s
    cases past with
    | nil => rfl
    | cons previous past => exact hback previous rfl
  redoEffect := by
    obtain ⟨-, hforth⟩ := ne_editor_of_valid h
    rw [length_timeline]
    obtain ⟨editor, past, future, records, undoLimit, historyLimit⟩ := s
    cases future with
    | nil =>
      rw [if_neg (by simp [timeline])]
      rfl
    | cons next future =>
      rw [if_pos (by simp [timeline])]
      exact hforth next rfl
  restored := fun _ hcount => run_undo_redo hcount

/-- **A session is a bounded timeline.** After any requests it behaves as the row does after the same
requests: where the row is, what the next request does to it, and that undoing and redoing as often
restores it. -/
theorem run_follows (editor : Editor) (undoLimit historyLimit : Nat) (requests : List Request) :
    ((start editor undoLimit historyLimit).run requests).Follows undoLimit
      ((Timeline.start editor).run undoLimit requests) := by
  generalize hs : (start editor undoLimit historyLimit).run requests = s
  have hstart : (Timeline.start editor).Valid undoLimit := .start undoLimit editor
  have hrun : s.timeline = (Timeline.start editor).run undoLimit requests ∧
      s.undoLimit = undoLimit :=
    hs ▸ timeline_run (start editor undoLimit historyLimit) requests
  obtain ⟨hrow, hlimit⟩ := hrun
  have hfollows := follows_timeline (s := s) (by rw [hrow, hlimit]; exact hstart.run requests)
  rw [hrow, hlimit] at hfollows
  exact hfollows

end Session

end PocketCalculator
