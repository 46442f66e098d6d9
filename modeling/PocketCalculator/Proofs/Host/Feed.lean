import PocketCalculator.Proofs.Host.Step

/-!
# Feeding inputs

A machine is fed inputs for as long as it may make steps. So it takes those up to the first quit, and no
more than its limit allows (`feed_eq_foldl`), and after inputs it may make a step unless they stop it
(`canStep_feed`). Where a machine gets to depends on its state only (`feed_congr`).
-/

namespace PocketCalculator.Host

namespace Input

/-- The inputs up to the first quit, and with it. -/
def throughQuit : List Input → List Input
  | [] => []
  | input :: rest => if input = .command .quit then [input] else input :: throughQuit rest

/-- The inputs that are taken by a machine with a limit: those up to the first quit, and no more than
the limit, where zero is no limit. -/
def allowed (maxSteps : Nat) (inputs : List Input) : List Input :=
  if maxSteps = 0 then throughQuit inputs else (throughQuit inputs).take maxSteps

/-- After these inputs no other is taken. -/
def stops (maxSteps : Nat) (inputs : List Input) : Bool :=
  inputs.contains (.command .quit) || maxSteps != 0 && maxSteps ≤ inputs.length

theorem stops_iff {maxSteps : Nat} {inputs : List Input} :
    stops maxSteps inputs = true ↔
      .command .quit ∈ inputs ∨ maxSteps ≠ 0 ∧ maxSteps ≤ inputs.length := by
  simp [stops]

/-- What a limit leaves of inputs after so many steps. -/
def within (maxSteps steps : Nat) (inputs : List Input) : List Input :=
  if maxSteps = 0 then inputs else inputs.take (maxSteps - steps)

section Within

variable {maxSteps steps : Nat}

theorem within_nil : within maxSteps steps [] = [] := by
  unfold within
  rw [List.take_nil, ite_self]

theorem within_cons (hroom : maxSteps = 0 ∨ steps < maxSteps) (input : Input) (rest : List Input) :
    within maxSteps steps (input :: rest) = input :: within maxSteps (steps + 1) rest := by
  unfold within
  split
  · rfl
  · rw [show maxSteps - steps = maxSteps - (steps + 1) + 1 by omega, List.take_succ_cons]

theorem within_full (hroom : ¬ (maxSteps = 0 ∨ steps < maxSteps)) (inputs : List Input) :
    within maxSteps steps inputs = [] := by
  obtain ⟨hlimit, hsteps⟩ := not_or.mp hroom
  unfold within
  rw [if_neg hlimit, Nat.sub_eq_zero_of_le (Nat.le_of_not_lt hsteps), List.take_zero]

end Within

end Input

namespace Machine

variable {m m' : Machine}

theorem isShutDown_step (m : Machine) (input : Input) :
    (m.step input).isShutDown = (m.isShutDown || input == .command .quit) :=
  congrArg State.isShutDown (state_step m input)

theorem maxSteps_step (m : Machine) (input : Input) : (m.step input).maxSteps = m.maxSteps :=
  congrArg State.maxSteps (state_step m input)

theorem steps_step (m : Machine) (input : Input) : (m.step input).steps = m.steps + 1 :=
  congrArg State.steps (state_step m input)

theorem canStep_iff :
    m.canStep = true ↔ m.isShutDown = false ∧ (m.maxSteps = 0 ∨ m.steps < m.maxSteps) := by
  simp [canStep]

theorem feed_cons (h : m.canStep = true) (input : Input) (rest : List Input) :
    m.feed (input :: rest) = (m.step input).feed rest :=
  if_pos h

theorem feed_of_not_canStep (h : ¬ m.canStep = true) (inputs : List Input) : m.feed inputs = m := by
  cases inputs with
  | nil => rfl
  | cons input rest => exact if_neg h

theorem feed_append (m : Machine) (inputs more : List Input) :
    m.feed (inputs ++ more) = (m.feed inputs).feed more := by
  induction inputs generalizing m with
  | nil => rfl
  | cons input rest ih =>
    by_cases h : m.canStep = true
    · rw [List.cons_append, feed_cons h, feed_cons h]
      exact ih (m.step input)
    · rw [feed_of_not_canStep h, feed_of_not_canStep h, feed_of_not_canStep h]

/-! ## The limit -/

theorem not_canStep_step_quit (m : Machine) : ¬ (m.step (.command .quit)).canStep = true := by
  rw [canStep_iff, isShutDown_step]
  simp

/-- **What is taken of the inputs.** -/
theorem feed_eq_foldl (h : m.isShutDown = false) (inputs : List Input) :
    m.feed inputs = (Input.within m.maxSteps m.steps (Input.throughQuit inputs)).foldl step m := by
  induction inputs generalizing m with
  | nil =>
    rw [Input.throughQuit, Input.within_nil]
    rfl
  | cons input rest ih =>
    by_cases hroom : m.maxSteps = 0 ∨ m.steps < m.maxSteps
    · rw [feed_cons (canStep_iff.mpr ⟨h, hroom⟩), Input.throughQuit]
      by_cases hquit : input = .command .quit
      · rw [if_pos hquit, Input.within_cons hroom, Input.within_nil, hquit,
          feed_of_not_canStep (not_canStep_step_quit m)]
        rfl
      · have hrunning : (m.step input).isShutDown = false := by
          rw [isShutDown_step, h]
          simpa using hquit
        rw [if_neg hquit, Input.within_cons hroom, ih hrunning, maxSteps_step, steps_step]
        rfl
    · have hstep : ¬ m.canStep = true := fun hstep => hroom (canStep_iff.mp hstep).2
      rw [feed_of_not_canStep hstep, Input.within_full hroom]
      rfl

/-- A machine that has made no step takes what is allowed. -/
theorem feed_eq_foldl_allowed (hrunning : m.isShutDown = false) (hsteps : m.steps = 0)
    (inputs : List Input) : m.feed inputs = (Input.allowed m.maxSteps inputs).foldl step m := by
  rw [feed_eq_foldl hrunning, hsteps]
  rfl

theorem canStep_feed_iff (m : Machine) (inputs : List Input) :
    (m.feed inputs).canStep = true ↔
      m.canStep = true ∧ .command .quit ∉ inputs ∧
        (m.maxSteps = 0 ∨ m.steps + inputs.length < m.maxSteps) := by
  induction inputs generalizing m with
  | nil =>
    constructor
    · intro h
      exact ⟨h, List.not_mem_nil, (canStep_iff.mp h).2⟩
    · exact And.left
  | cons input rest ih =>
    by_cases h : m.canStep = true
    · have hm := canStep_iff.mp h
      rw [feed_cons h, ih, canStep_iff, isShutDown_step, maxSteps_step, steps_step, hm.1,
        Bool.false_or, beq_eq_false_iff_ne, List.mem_cons, List.length_cons]
      constructor
      · rintro ⟨⟨hquit, -⟩, hrest, hroom⟩
        exact ⟨h, not_or_intro (Ne.symm hquit) hrest, by omega⟩
      · rintro ⟨-, hnone, hroom⟩
        obtain ⟨hquit, hrest⟩ := not_or.mp hnone
        exact ⟨⟨Ne.symm hquit, by omega⟩, hrest, by omega⟩
    · rw [feed_of_not_canStep h]
      constructor
      · exact fun hstep => absurd hstep h
      · exact And.left

/-- A machine that has made no step goes on until its inputs stop it. -/
theorem canStep_feed (hrunning : m.isShutDown = false) (hsteps : m.steps = 0) (inputs : List Input) :
    (m.feed inputs).canStep = !Input.stops m.maxSteps inputs := by
  have hroom : (m.maxSteps = 0 ∨ m.steps + inputs.length < m.maxSteps) →
      m.maxSteps = 0 ∨ m.steps < m.maxSteps := by
    omega
  have hfull : (m.maxSteps = 0 ∨ m.steps + inputs.length < m.maxSteps) ↔
      ¬ (m.maxSteps ≠ 0 ∧ m.maxSteps ≤ inputs.length) := by
    omega
  have hstops : (!Input.stops m.maxSteps inputs) = true ↔ ¬ Input.stops m.maxSteps inputs = true := by
    simp
  rw [Bool.eq_iff_iff, canStep_feed_iff, canStep_iff, hstops, Input.stops_iff, not_or, ← hfull]
  constructor
  · exact And.right
  · rintro ⟨hquit, hlength⟩
    exact ⟨⟨hrunning, hroom hlength⟩, hquit, hlength⟩

/-! ## States -/

theorem canStep_congr (h : m.state = m'.state) : m.canStep = m'.canStep := by
  unfold canStep
  rw [show m.isShutDown = m'.isShutDown from congrArg State.isShutDown h,
    show m.maxSteps = m'.maxSteps from congrArg State.maxSteps h,
    show m.steps = m'.steps from congrArg State.steps h]

/-- **Machines in one state stay in one.** -/
theorem feed_congr (h : m.state = m'.state) (inputs : List Input) :
    (m.feed inputs).state = (m'.feed inputs).state := by
  induction inputs generalizing m m' with
  | nil => exact h
  | cons input rest ih =>
    unfold feed
    rw [canStep_congr h]
    split
    · refine ih ?_
      rw [state_step, state_step, h]
    · exact h

theorem state_run (m : Machine) (inputs : List Input) :
    (m.run inputs).state = (m.feed inputs).state :=
  state_flush _

end Machine

end PocketCalculator.Host
