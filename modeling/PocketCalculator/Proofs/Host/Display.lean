import PocketCalculator.Proofs.Host.Step
import PocketCalculator.Proofs.Session.History

/-!
# What is on show

The last frame that is written shows the session as it is, unless a frame is marked as due
(`Machine.UpToDate`). Whatever a machine does is made of four operations (`Machine.Operation`), each of
which keeps this, and a frame that one of them writes is the frame of the session after it
(`upToDate_operateAll`, `frame_of_mem_operateAll`). A script writes what is due at its end, and so does a
dialogue after each line (`isShown_run`, `isShown_takeLines`).
-/

namespace PocketCalculator.Host

/-! ## Frames of a session -/

/-- A text shows the mode of a session and, in a field of so many characters, its display: the last of
its characters, or all of them after blanks. -/
def IsFrameOf (text : String) (s : Session) (width : Nat) : Prop :=
  ∃ field : List Char,
    text = "[" ++ s.editor.mode.name ++ "] " ++ String.ofList field ∧ field.length = width ∧
      (width ≤ s.display.toList.length → field <:+ s.display.toList) ∧
      (s.display.toList.length ≤ width →
        field = List.replicate (width - s.display.toList.length) ' ' ++ s.display.toList)

theorem isFrameOf_frame (s : Session) (width : Nat) : IsFrameOf (frame s width) s width := by
  refine ⟨fit s.display.toList width, rfl, length_fit _ _, ?_, fit_of_length_le⟩
  intro hlong
  rw [fit_of_le_length hlong]
  exact List.drop_suffix _ _

def Output.frame? : Output → Option String
  | .frame text => some text
  | _ => none

theorem Output.frame?_of_isAnswer {output : Output} (h : output.isAnswer = true) :
    output.frame? = none := by
  cases output with
  | frame text => cases h
  | _ => rfl

namespace Machine

variable {m m' : Machine} {first : String}

/-- The last frame that is written, or `first` if none is. -/
def lastFrame (first : String) (m : Machine) : String :=
  (m.outputs.findSome? Output.frame?).getD first

/-- The last frame shows the session as it is, unless a frame is due. -/
def UpToDate (first : String) (m : Machine) : Prop :=
  m.framePending = false → m.lastFrame first = m.currentFrame

/-- No frame is due, and the last shows the session as it is. -/
def IsShown (first : String) (m : Machine) : Prop :=
  m.framePending = false ∧ m.lastFrame first = m.currentFrame

theorem IsShown.upToDate (h : m.IsShown first) : m.UpToDate first :=
  fun _ => h.2

theorem lastFrame_of_frame (houtputs : m'.outputs = .frame m'.currentFrame :: m.outputs) :
    m'.lastFrame first = m'.currentFrame := by
  unfold lastFrame
  rw [houtputs]
  rfl

theorem Shows.upToDate (h : Shows m m') (hm : m.UpToDate first) : m'.UpToDate first := by
  intro hpending
  cases h with
  | frame outputs pending => exact lastFrame_of_frame outputs
  | mark outputs pending => cases pending.symm.trans hpending
  | answer answers outputs all display pending =>
    have hnone : answers.findSome? Output.frame? = none := by
      rw [List.findSome?_eq_none_iff]
      intro output houtput
      exact Output.frame?_of_isAnswer (List.all_eq_true.mp all output houtput)
    rw [display, ← hm (pending.symm.trans hpending)]
    unfold lastFrame
    rw [outputs, List.findSome?_append, hnone, Option.none_or]

theorem Shows.frame_of_mem (h : Shows m m') {text : String} (hmem : .frame text ∈ m'.outputs) :
    .frame text ∈ m.outputs ∨ text = m'.currentFrame := by
  cases h with
  | frame outputs pending =>
    rw [outputs] at hmem
    rcases List.mem_cons.mp hmem with heq | hmem
    · exact .inr (Output.frame.inj heq)
    · exact .inl hmem
  | mark outputs pending => exact .inl (outputs ▸ hmem)
  | answer answers outputs all display pending =>
    rw [outputs] at hmem
    rcases List.mem_append.mp hmem with hmem | hmem
    · cases List.all_eq_true.mp all _ hmem
    · exact .inl hmem

/-! ## Operations -/

/-- What a machine does, one at a time. -/
inductive Operation where
  | step (input : Input)
  | flush
  | render
  | complain (cause : ScriptError)

def operate (m : Machine) : Operation → Machine
  | .step input => m.step input
  | .flush => m.flush
  | .render => m.render
  | .complain cause => m.complain cause

def operateAll (m : Machine) (operations : List Operation) : Machine :=
  operations.foldl operate m

theorem operateAll_append (m : Machine) (operations more : List Operation) :
    m.operateAll (operations ++ more) = (m.operateAll operations).operateAll more :=
  List.foldl_append

/-- A complaint is no frame, so it leaves what is on show. -/
theorem upToDate_complain (h : m.UpToDate first) (cause : ScriptError) :
    (m.complain cause).UpToDate first :=
  h

theorem upToDate_operate (h : m.UpToDate first) (operation : Operation) :
    (m.operate operation).UpToDate first := by
  cases operation with
  | step input => exact (shows_step m input).upToDate h
  | flush => exact (shows_flush m).upToDate h
  | render => exact (shows_render m).upToDate h
  | complain cause => exact upToDate_complain h cause

/-- **The display is never stale.** -/
theorem upToDate_operateAll (h : m.UpToDate first) (operations : List Operation) :
    (m.operateAll operations).UpToDate first := by
  induction operations generalizing m with
  | nil => exact h
  | cons operation rest ih => exact ih (upToDate_operate h operation)

theorem frame_of_mem_operate (m : Machine) (operation : Operation) {text : String}
    (h : .frame text ∈ (m.operate operation).outputs) :
    .frame text ∈ m.outputs ∨ text = (m.operate operation).currentFrame := by
  cases operation with
  | step input => exact (shows_step m input).frame_of_mem h
  | flush => exact (shows_flush m).frame_of_mem h
  | render => exact (shows_render m).frame_of_mem h
  | complain cause =>
    rcases List.mem_cons.mp h with heq | hmem
    · cases heq
    · exact .inl hmem

/-- **A frame that is written was the frame of the session at some time.** -/
theorem frame_of_mem_operateAll (m : Machine) (operations : List Operation) {text : String}
    (h : .frame text ∈ (m.operateAll operations).outputs) :
    .frame text ∈ m.outputs ∨
      ∃ earlier, earlier <+: operations ∧ text = (m.operateAll earlier).currentFrame := by
  induction operations using List.reverseRecOn with
  | nil => exact .inl h
  | append_singleton operations operation ih =>
    rw [operateAll_append] at h
    rcases frame_of_mem_operate _ operation h with hbefore | rfl
    · rcases ih hbefore with hstart | ⟨earlier, hearlier, htext⟩
      · exact .inl hstart
      · exact .inr ⟨earlier, hearlier.trans (List.prefix_append ..), htext⟩
    · exact .inr ⟨operations ++ [operation], List.prefix_rfl, by rw [operateAll_append]; rfl⟩

theorem width_operate (m : Machine) (operation : Operation) :
    (m.operate operation).width = m.width := by
  cases operation with
  | step input => exact congrArg State.width (state_step m input)
  | flush => exact congrArg State.width (state_flush m)
  | render => rfl
  | complain cause => rfl

theorem width_operateAll (m : Machine) (operations : List Operation) :
    (m.operateAll operations).width = m.width := by
  induction operations generalizing m with
  | nil => rfl
  | cons operation rest ih => exact (ih _).trans (width_operate m operation)

/-! ## Runs as operations -/

/-- Some operations lead from one machine to the other. -/
def Reaches (m m' : Machine) : Prop :=
  ∃ operations, m.operateAll operations = m'

theorem Reaches.refl (m : Machine) : m.Reaches m :=
  ⟨[], rfl⟩

theorem Reaches.operate (m : Machine) (operation : Operation) : m.Reaches (m.operate operation) :=
  ⟨[operation], rfl⟩

theorem Reaches.trans {m'' : Machine} (h : m.Reaches m') (h' : m'.Reaches m'') :
    m.Reaches m'' := by
  obtain ⟨operations, rfl⟩ := h
  obtain ⟨more, rfl⟩ := h'
  exact ⟨operations ++ more, operateAll_append m operations more⟩

theorem Reaches.upToDate (h : m.Reaches m') (hm : m.UpToDate first) : m'.UpToDate first := by
  obtain ⟨operations, rfl⟩ := h
  exact upToDate_operateAll hm operations

theorem reaches_feed (m : Machine) (inputs : List Input) : m.Reaches (m.feed inputs) := by
  refine feed_keeps ?_ (.refl m) inputs
  intro m' input h
  exact h.trans (.operate m' (.step input))

theorem reaches_run (m : Machine) (inputs : List Input) : m.Reaches (m.run inputs) :=
  (reaches_feed m inputs).trans (.operate _ .flush)

theorem reaches_takeLine (m : Machine) (number : Nat) (line : List Char) :
    m.Reaches (m.takeLine number line).1 := by
  unfold takeLine
  split
  · next cause _ => exact .operate m (.complain cause)
  · next inputs _ => exact reaches_run m inputs

theorem reaches_takeLines (m : Machine) (number : Nat) (lines : List Text.Scanned) :
    m.Reaches (m.takeLines number lines).1 := by
  refine takeLines_keeps ?_ (.refl m) number lines
  intro m' number line h
  exact h.trans (reaches_takeLine m' number line)

theorem reaches_interact (m : Machine) (input : Text.Scanned) : m.Reaches (m.interact input).1 :=
  (Reaches.operate m .render).trans (reaches_takeLines _ _ _)

/-! ## When nothing is due -/

theorem isShown_render (m : Machine) (first : String) : m.render.IsShown first :=
  ⟨rfl, lastFrame_of_frame rfl⟩

theorem isShown_flush (h : m.UpToDate first) : m.flush.IsShown first := by
  unfold flush
  split
  · exact isShown_render m first
  · next hdue =>
    have hpending : m.framePending = false := Bool.eq_false_iff.mpr hdue
    exact ⟨hpending, h hpending⟩

theorem isShown_run (h : m.UpToDate first) (inputs : List Input) : (m.run inputs).IsShown first :=
  isShown_flush ((reaches_feed m inputs).upToDate h)

theorem isShown_takeLine_of_ok (h : m.UpToDate first) {number : Nat} {line : List Char}
    {inputs : List Input} (hline : Input.ofLine number line = .ok inputs) :
    (m.takeLine number line).1.IsShown first := by
  unfold takeLine
  rw [hline]
  exact isShown_run h inputs

theorem isShown_takeLine (h : m.IsShown first) (number : Nat) (line : List Char) :
    (m.takeLine number line).1.IsShown first := by
  cases hline : Input.ofLine number line with
  | error cause =>
    unfold takeLine
    rw [hline]
    exact h
  | ok inputs => exact isShown_takeLine_of_ok h.upToDate hline

theorem isShown_takeLines (h : m.IsShown first) (number : Nat) (lines : List Text.Scanned) :
    (m.takeLines number lines).1.IsShown first := by
  refine takeLines_keeps (P := IsShown first) ?_ h number lines
  intro m number line h
  exact isShown_takeLine h number line

/-! ## Evaluations -/

theorem outputs_settle_evaluated (m : Machine) (expression : String) {result : Session × Outcome}
    {evaluation : Evaluation} (h : result.2 = .evaluated evaluation) :
    (m.settle expression result).outputs =
      .frame (m.settle expression result).currentFrame :: m.outputs := by
  obtain ⟨session, outcome⟩ := result
  obtain rfl : outcome = .evaluated evaluation := h
  rfl

/-- What is evaluated is shown at once. -/
theorem outputs_step_of_evaluate {input : Input}
    (h : input.request?.bind m.session.action? = some .evaluate) :
    (m.step input).outputs = .frame (m.step input).currentFrame :: m.outputs := by
  cases input with
  | key k =>
    have hevaluate : m.session.applyKey k = m.session.evaluate := by
      unfold Session.applyKey
      rw [show k.action? m.session.editor.cursor = some .evaluate from h]
      rfl
    dsimp only [step]
    rw [hevaluate]
    exact outputs_settle_evaluated _ _ rfl
  | press label =>
    have hevaluate : m.session.press? label = some m.session.evaluate := by
      unfold Session.press?
      rw [show Action.ofLabel? label = some .evaluate from h]
      rfl
    dsimp only [step]
    rw [hevaluate]
    exact outputs_settle_evaluated _ _ rfl
  | command command =>
    -- No command evaluates.
    cases command with
    | mode request =>
      cases request with
      | set mode =>
        change (if m.session.editor.mode = mode then none else some (Action.edit .modeToggle)) =
          some .evaluate at h
        split at h <;> cases h
      | toggle => cases h
    | _ => cases h

end Machine

/-- **The display on the output is never stale.** A new machine does anything at all, then: if no frame is
due, the last shows the session as it is; an evaluation is shown at once; at the end of a script, and at
the start of a dialogue and after each of its lines, nothing is due. -/
theorem display_current (preferences : Settings.Preferences) (maxSteps : Nat)
    (operations : List Machine.Operation) :
    let fresh := Machine.start preferences maxSteps
    let first := fresh.currentFrame
    let m := fresh.operateAll operations
    (m.framePending = false → m.lastFrame first = m.currentFrame) ∧
      (∀ input : Input, input.request?.bind m.session.action? = some .evaluate →
        (m.step input).outputs = .frame (m.step input).currentFrame :: m.outputs) ∧
      (∀ inputs, (m.run inputs).IsShown first) ∧
      -- The lines may be those that a dialogue has had so far.
      ((∀ number lines, (m.render.takeLines number lines).1.IsShown first) ∧
        ∀ number line inputs, Input.ofLine number line = .ok inputs →
          (m.takeLine number line).1.IsShown first) ∧
      (IsFrameOf m.currentFrame m.session preferences.displayWidth ∧
        ∀ text, .frame text ∈ m.outputs → ∃ earlier, earlier <+: operations ∧
          IsFrameOf text (fresh.operateAll earlier).session preferences.displayWidth) ∧
      -- So all of this is true after scripts and dialogues, too.
      (∀ inputs, m.Reaches (m.run inputs)) ∧ ∀ input, m.Reaches (m.interact input).1 := by
  intro fresh first m
  have hstart : fresh.UpToDate first := fun _ => rfl
  have hm : m.UpToDate first := Machine.upToDate_operateAll hstart operations
  have hframe : ∀ operations, IsFrameOf (fresh.operateAll operations).currentFrame
      (fresh.operateAll operations).session preferences.displayWidth := by
    intro operations
    unfold Machine.currentFrame
    rw [Machine.width_operateAll]
    exact isFrameOf_frame _ _
  refine ⟨hm, ?_, Machine.isShown_run hm, ⟨?_, ?_⟩, ⟨hframe operations, ?_⟩,
    Machine.reaches_run m, Machine.reaches_interact m⟩
  · intro input hinput
    exact Machine.outputs_step_of_evaluate hinput
  · intro number lines
    exact Machine.isShown_takeLines (Machine.isShown_render m first) number lines
  · intro number line inputs hline
    exact Machine.isShown_takeLine_of_ok hm hline
  · intro text htext
    rcases Machine.frame_of_mem_operateAll fresh operations htext with hnone | ⟨earlier, hearlier, rfl⟩
    · cases hnone
    · exact ⟨earlier, hearlier, hframe earlier⟩

end PocketCalculator.Host
