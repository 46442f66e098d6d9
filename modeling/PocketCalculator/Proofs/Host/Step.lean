import PocketCalculator.Host.Machine

/-!
# Steps of the host

Most inputs are requests to the session (`Input.request?`). A step hands the request on and counts, and a
quit shuts the host down; that is all it does to the `State`, from which everything later follows
(`state_step`). What a step shows is one of three things: a frame of the session as it is now, nothing
but a mark that a frame is due, or an answer that leaves the display as it was (`shows_step`).
-/

namespace PocketCalculator.Session

variable {s : Session}

/-! ## What an outcome tells -/

theorem editor_of_not_changed {next : Editor} (h : (s.moveTo next).2 ≠ .changed) :
    (s.moveTo next).1.editor = s.editor := by
  unfold moveTo at h ⊢
  split
  · rfl
  · next hne =>
    rw [if_neg hne] at h
    exact absurd rfl h

theorem editor_applyAction {action : Action} (h : (s.applyAction action).2 = .unchanged) :
    (s.applyAction action).1.editor = s.editor := by
  cases action with
  | edit event =>
    refine editor_of_not_changed ?_
    intro hchanged
    cases hchanged.symm.trans h
  | evaluate => cases h

theorem editor_applyKey {key : Key} (h : (s.applyKey key).2 = .unchanged) :
    (s.applyKey key).1.editor = s.editor := by
  unfold applyKey at h ⊢
  split
  · next haction =>
    rw [haction] at h
    exact editor_applyAction h
  · rfl

theorem editor_press {label : String} {result : Session × Outcome} (h : s.press? label = some result)
    (hunchanged : result.2 = .unchanged) : result.1.editor = s.editor := by
  obtain ⟨action, -, rfl⟩ := Option.map_eq_some_iff.mp h
  exact editor_applyAction hunchanged

theorem editor_setMode {mode : Mode} (h : (s.setMode mode).2 ≠ .changed) :
    (s.setMode mode).1.editor = s.editor := by
  unfold setMode at h ⊢
  split
  · rfl
  · next hmode =>
    rw [if_neg hmode] at h
    exact editor_of_not_changed h

end PocketCalculator.Session

namespace PocketCalculator.Host

/-- The request to the session that an input makes, if it makes one. -/
def Input.request? : Input → Option Session.Request
  | .key k => some (.key k)
  | .press label => some (.press label)
  | .command (.mode (.set mode)) => some (.setMode mode)
  | .command (.mode .toggle) => some (.event .modeToggle)
  | .command .clearHistory => some .clearHistory
  | .command .undo => some .undo
  | .command .redo => some .redo
  | .command .history | .command .quit => none

/-! ## The state of a machine -/

/-- What decides how a machine goes on, and what it shows. What it has written and logged, and whether a
frame is due, has no say in it. -/
@[ext]
structure State where
  session : Session
  width : Nat
  maxSteps : Nat
  steps : Nat
  isShutDown : Bool

def State.step (s : State) (input : Input) : State where
  session := (input.request?.map fun request => (s.session.step request).1).getD s.session
  width := s.width
  maxSteps := s.maxSteps
  steps := s.steps + 1
  isShutDown := s.isShutDown || input == .command .quit

namespace Machine

variable {m : Machine}

def state (m : Machine) : State where
  session := m.session
  width := m.width
  maxSteps := m.maxSteps
  steps := m.steps
  isShutDown := m.isShutDown

theorem state_flush (m : Machine) : m.flush.state = m.state := by
  unfold flush
  split <;> rfl

theorem state_settle (m : Machine) (expression : String) (result : Session × Outcome) :
    (m.settle expression result).state = { m.state with session := result.1 } := by
  unfold settle
  dsimp only
  split <;> rfl

theorem state_settleMode (m : Machine) (result : Session × Outcome) :
    (m.settleMode result).state = { m.state with session := result.1 } := by
  unfold settleMode
  dsimp only
  split <;> rfl

theorem state_settleMove (m : Machine) (result : Option Session) :
    (m.settleMove result).state = { m.state with session := result.getD m.session } := by
  cases result <;> rfl

theorem foldl_write (m : Machine) (outputs : List Output) :
    outputs.foldl write m = { m with outputs := outputs.reverse ++ m.outputs } := by
  induction outputs generalizing m with
  | nil => rfl
  | cons output outputs ih =>
    rw [List.foldl_cons, ih, List.reverse_cons, List.append_assoc]
    rfl

/-- What is written of the history, the newest first. -/
def historyOutputs (s : Session) : List Output :=
  match s.history with
  | [] => [.noHistory]
  | history => (history.map .record).reverse

theorem writeHistory_eq (m : Machine) :
    m.writeHistory = { m with outputs := historyOutputs m.session ++ m.outputs } := by
  unfold writeHistory historyOutputs
  cases m.session.history with
  | nil => rfl
  | cons record records =>
    dsimp only
    rw [← foldl_write, List.foldl_map]

theorem state_execute (m : Machine) (command : Command) :
    (m.execute command).state = { m.state.step (.command command) with steps := m.steps } := by
  have hidle : m.isShutDown = (m.isShutDown || false) := (Bool.or_false _).symm
  cases command with
  | mode request =>
    cases request with
    | set mode => exact (state_settleMode ..).trans (State.ext rfl rfl rfl rfl hidle)
    | toggle => exact (state_settleMode ..).trans (State.ext rfl rfl rfl rfl hidle)
  | history =>
    dsimp only [execute]
    rw [writeHistory_eq]
    exact State.ext rfl rfl rfl rfl hidle
  | clearHistory => exact State.ext rfl rfl rfl rfl hidle
  | undo => exact (state_settleMove ..).trans (State.ext rfl rfl rfl rfl hidle)
  | redo => exact (state_settleMove ..).trans (State.ext rfl rfl rfl rfl hidle)
  | quit => exact State.ext rfl rfl rfl rfl (Bool.or_true _).symm

/-- **A step of the machine is one of its state.** -/
theorem state_step (m : Machine) (input : Input) : (m.step input).state = m.state.step input := by
  have hidle : m.isShutDown = (m.isShutDown || false) := (Bool.or_false _).symm
  cases input with
  | key key => exact (state_settle ..).trans (State.ext rfl rfl rfl rfl hidle)
  | press label =>
    -- The session is asked once, and what it answers is looked at on both sides.
    have hsession : ∀ pressed : Option (Session × Outcome), m.session.press? label = pressed →
        (m.session.step (.press label)).1 = (pressed.map (·.1)).getD m.session := by
      intro pressed hpressed
      dsimp only [Session.step]
      rw [hpressed]
      cases pressed <;> rfl
    dsimp only [step]
    cases hpressed : m.session.press? label with
    | none => exact State.ext (hsession none hpressed).symm rfl rfl rfl hidle
    | some result =>
      exact (state_settle ..).trans (State.ext (hsession (some result) hpressed).symm rfl rfl rfl hidle)
  | command command => exact (state_execute ..).trans (State.ext rfl rfl rfl rfl rfl)

end Machine

/-! ## What a step shows -/

/-- An answer to a request for the history. -/
def Output.isAnswer : Output → Bool
  | .noHistory | .record _ => true
  | _ => false

namespace Machine

variable {m m' : Machine}

/-- What is shown on the way from one machine to the next. -/
inductive Shows (m m' : Machine) : Prop where
  | frame (outputs : m'.outputs = .frame m'.currentFrame :: m.outputs)
      (pending : m'.framePending = false)
  /-- Nothing yet, but a frame is due. -/
  | mark (outputs : m'.outputs = m.outputs) (pending : m'.framePending = true)
  | answer (answers : List Output) (outputs : m'.outputs = answers ++ m.outputs)
      (all : answers.all Output.isAnswer = true) (display : m'.currentFrame = m.currentFrame)
      (pending : m'.framePending = m.framePending)

/-- A frame shows the editor, and nothing else of the session. -/
theorem currentFrame_congr (heditor : m'.session.editor = m.session.editor)
    (hwidth : m'.width = m.width) : m'.currentFrame = m.currentFrame := by
  unfold currentFrame frame Session.display
  rw [heditor, hwidth]

theorem Shows.nothing (houtputs : m'.outputs = m.outputs)
    (heditor : m'.session.editor = m.session.editor) (hwidth : m'.width = m.width)
    (hpending : m'.framePending = m.framePending) : Shows m m' :=
  .answer [] houtputs rfl (currentFrame_congr heditor hwidth) hpending

/-- To count a step shows nothing. -/
theorem Shows.counted (h : Shows { m with steps := m.steps + 1 } m') : Shows m m' := by
  cases h with
  | frame outputs pending => exact .frame outputs pending
  | mark outputs pending => exact .mark outputs pending
  | answer answers outputs all display pending => exact .answer answers outputs all display pending

theorem shows_render (m : Machine) : Shows m m.render :=
  .frame rfl rfl

theorem shows_flush (m : Machine) : Shows m m.flush := by
  unfold flush
  split
  · exact shows_render m
  · exact .nothing rfl rfl rfl rfl

theorem shows_settle (m : Machine) (expression : String) {result : Session × Outcome}
    (h : result.2 = .unchanged → result.1.editor = m.session.editor) :
    Shows m (m.settle expression result) := by
  obtain ⟨session, outcome⟩ := result
  cases outcome with
  | unchanged => exact .nothing rfl (h rfl) rfl rfl
  | changed => exact .mark rfl rfl
  | evaluated evaluation => exact .frame rfl rfl

theorem shows_settleMode (m : Machine) {result : Session × Outcome}
    (h : result.2 ≠ .changed → result.1.editor = m.session.editor) :
    Shows m (m.settleMode result) := by
  unfold settleMode
  dsimp only
  split
  · exact .mark rfl rfl
  · next hchanged => exact .nothing rfl (h hchanged) rfl rfl

theorem shows_settleMove (m : Machine) (result : Option Session) :
    Shows m (m.settleMove result) := by
  cases result with
  | none => exact .nothing rfl rfl rfl rfl
  | some session => exact .mark rfl rfl

theorem isAnswer_historyOutputs (s : Session) : (historyOutputs s).all Output.isAnswer = true := by
  unfold historyOutputs
  split
  · rfl
  · rw [List.all_reverse, List.all_map]
    exact List.all_eq_true.mpr fun _ _ => rfl

theorem shows_writeHistory (m : Machine) : Shows m m.writeHistory := by
  rw [writeHistory_eq]
  exact .answer (historyOutputs m.session) rfl (isAnswer_historyOutputs _) rfl rfl

theorem shows_execute (m : Machine) (command : Command) : Shows m (m.execute command) := by
  cases command with
  | mode request =>
    cases request with
    | set mode => exact shows_settleMode m Session.editor_setMode
    | toggle => exact shows_settleMode m Session.editor_of_not_changed
  | history => exact shows_writeHistory m
  | clearHistory => exact .nothing rfl rfl rfl rfl
  | undo => exact shows_settleMove m _
  | redo => exact shows_settleMove m _
  | quit => exact .nothing rfl rfl rfl rfl

/-- **A step shows what it changes, or marks that it is to be shown.** -/
theorem shows_step (m : Machine) (input : Input) : Shows m (m.step input) := by
  refine Shows.counted ?_
  cases input with
  | key key => exact shows_settle _ _ Session.editor_applyKey
  | press label =>
    dsimp only [step]
    split
    · next hpress => exact shows_settle _ _ (Session.editor_press hpress)
    · exact .nothing rfl rfl rfl rfl
  | command command => exact shows_execute _ command

/-! ## What runs keep -/

section Keep

variable {P : Machine → Prop}

/-- What a step keeps is kept by any number of them. -/
theorem feed_keeps (hstep : ∀ m input, P m → P (m.step input)) (h : P m) (inputs : List Input) :
    P (m.feed inputs) := by
  induction inputs generalizing m with
  | nil => exact h
  | cons input rest ih =>
    unfold feed
    split
    · exact ih (hstep m input h)
    · exact h

/-- What a line keeps is kept by any number of them. -/
theorem takeLines_keeps (hline : ∀ m number line, P m → P (m.takeLine number line).1) (h : P m)
    (number : Nat) (lines : List Text.Scanned) : P (m.takeLines number lines).1 := by
  induction lines generalizing m number with
  | nil => exact h
  | cons line rest ih =>
    unfold takeLines
    split
    · exact h
    · next text _ =>
      have htaken := hline m number text h
      split
      · next heq =>
        rw [heq] at htaken
        exact ih htaken _
      · next heq =>
        rw [heq] at htaken
        exact htaken

end Keep

end Machine

end PocketCalculator.Host
