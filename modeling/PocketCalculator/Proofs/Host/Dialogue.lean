import Mathlib.Data.List.Induction
import PocketCalculator.Proofs.Host.Feed
import PocketCalculator.Proofs.Host.Line
import PocketCalculator.Proofs.Text.Utf8

/-!
# Dialogues and scripts

A dialogue over a text and a script of it end in the same state, that of a machine that is fed the inputs
of the lines that can be read. The two look at the limit and for a quit at different moments: a script
before each input, a dialogue also after each line, but not after one with a fault. The lines are followed
one at a time, and after each of them the machine is where it would be had it been fed all inputs so far
(`state_takeTexts`). So whether it goes on is seen from those inputs (`canStep_takeTexts`), and with it
which faults are complained of (`complaints_takeTexts`).
-/

namespace PocketCalculator.Host

/-! ## Complaints -/

def Output.complaint? : Output → Option ScriptError
  | .complaint cause => some cause
  | _ => none

theorem Output.complaint?_of_isAnswer {output : Output} (h : output.isAnswer = true) :
    output.complaint? = none := by
  cases output with
  | complaint cause => cases h
  | _ => rfl

namespace Machine

variable {m m' : Machine}

/-- The complaints that are written, in order. -/
def complaints (m : Machine) : List ScriptError :=
  m.outputs.reverse.filterMap Output.complaint?

theorem Shows.complaints (h : Shows m m') : m'.complaints = m.complaints := by
  unfold Machine.complaints
  cases h with
  | frame outputs pending =>
    rw [outputs, List.reverse_cons, List.filterMap_append]
    exact List.append_nil _
  | mark outputs pending => rw [outputs]
  | answer answers outputs all display pending =>
    have hnone : answers.reverse.filterMap Output.complaint? = [] := by
      rw [List.filterMap_eq_nil_iff]
      intro output houtput
      exact Output.complaint?_of_isAnswer (List.all_eq_true.mp all output (List.mem_reverse.mp houtput))
    rw [outputs, List.reverse_append, List.filterMap_append, hnone, List.append_nil]

theorem complaints_feed (m : Machine) (inputs : List Input) :
    (m.feed inputs).complaints = m.complaints := by
  refine feed_keeps (P := fun m' => m'.complaints = m.complaints) ?_ rfl inputs
  intro m' input h
  exact (shows_step m' input).complaints.trans h

theorem complaints_run (m : Machine) (inputs : List Input) :
    (m.run inputs).complaints = m.complaints :=
  (shows_flush _).complaints.trans (complaints_feed m inputs)

theorem complaints_complain (m : Machine) (cause : ScriptError) :
    (m.complain cause).complaints = m.complaints ++ [cause] := by
  unfold complaints complain write log
  rw [List.reverse_cons, List.filterMap_append]
  rfl

/-! ## Lines one at a time -/

section Lines

variable (m) (number : Nat) (line : List Char)

theorem takeLine_eq :
    m.takeLine number line =
      match Input.fault? number line with
      | some cause => (m.complain cause, true)
      | none => (m.run (Input.readable line), (m.run (Input.readable line)).canStep) := by
  unfold takeLine
  rw [Input.ofLine_eq]
  cases Input.fault? number line <;> rfl

theorem state_takeLine :
    (m.takeLine number line).1.state = (m.feed (Input.readable line)).state := by
  rw [takeLine_eq]
  split
  · next cause hfault =>
    rw [Input.readable_of_fault? hfault]
    rfl
  · exact state_run m _

theorem complaints_takeLine :
    (m.takeLine number line).1.complaints =
      m.complaints ++ (Input.fault? number line).toList := by
  rw [takeLine_eq]
  split
  · next cause hfault => rw [hfault, complaints_complain, Option.toList_some]
  · next hfault => rw [hfault, complaints_run, Option.toList_none, List.append_nil]

/-- Whether the dialogue goes on is seen from the machine, also after a fault. -/
theorem takeLine_snd (h : m.canStep = true) :
    (m.takeLine number line).2 = (m.takeLine number line).1.canStep := by
  rw [takeLine_eq]
  split
  · exact h.symm
  · rfl

end Lines

/-- Takes the lines of a text. -/
def takeTexts (m : Machine) (number : Nat) (lines : List (List Char)) : Machine × Option Error :=
  m.takeLines number (lines.map (List.map some))

theorem takeTexts_cons (h : m.canStep = true) (number : Nat) (line : List Char)
    (rest : List (List Char)) :
    m.takeTexts number (line :: rest) =
      if (m.takeLine number line).1.canStep then
        (m.takeLine number line).1.takeTexts (number + 1) rest
      else ((m.takeLine number line).1, none) := by
  unfold takeTexts
  rw [List.map_cons, takeLines, Text.toText?_map_some, ← takeLine_snd m number line h]
  dsimp only
  split
  · next heq => rw [heq, if_pos rfl]
  · next heq =>
    rw [heq]
    rfl

theorem takeTexts_singleton (h : m.canStep = true) (number : Nat) (line : List Char) :
    (m.takeTexts number [line]).1 = (m.takeLine number line).1 := by
  rw [takeTexts_cons h]
  split <;> rfl

theorem takeTexts_append (h : m.canStep = true) (number : Nat) (lines more : List (List Char)) :
    m.takeTexts number (lines ++ more) =
      if (m.takeTexts number lines).1.canStep then
        (m.takeTexts number lines).1.takeTexts (number + lines.length) more
      else ((m.takeTexts number lines).1, none) := by
  induction lines generalizing m number with
  | nil => exact (if_pos h).symm
  | cons line rest ih =>
    rw [List.cons_append, takeTexts_cons h, takeTexts_cons h]
    by_cases hline : (m.takeLine number line).1.canStep = true
    · rw [if_pos hline, if_pos hline, ih hline, List.length_cons, Nat.add_right_comm, Nat.add_assoc]
    · rw [if_neg hline, if_neg hline, if_neg hline]

theorem takeTexts_snd (h : m.canStep = true) (number : Nat) (lines : List (List Char)) :
    (m.takeTexts number lines).2 = none := by
  induction lines generalizing m number with
  | nil => rfl
  | cons line rest ih =>
    rw [takeTexts_cons h]
    split
    · next hline => exact ih hline _
    · rfl

/-- After some lines a machine is where it would be had it been fed their inputs. -/
theorem state_takeTexts (h : m.canStep = true) (number : Nat) (lines : List (List Char)) :
    (m.takeTexts number lines).1.state = (m.feed (lines.flatMap Input.readable)).state := by
  induction lines generalizing m number with
  | nil => rfl
  | cons line rest ih =>
    have hline := state_takeLine m number line
    rw [takeTexts_cons h, List.flatMap_cons, feed_append]
    split
    · next hstep => exact (ih hstep _).trans (feed_congr hline _)
    · next hstep =>
      rw [canStep_congr hline] at hstep
      rw [feed_of_not_canStep hstep]
      exact hline

end Machine

/-! ## The lines that are reached -/

/-- The lines before which no input has stopped a machine with a limit, with their numbers. -/
def reached (maxSteps : Nat) (lines : List (List Char)) : List (List Char × Nat) :=
  (lines.zipIdx 1).filter fun entry =>
    !Input.stops maxSteps ((lines.take (entry.2 - 1)).flatMap Input.readable)

theorem reached_concat (maxSteps : Nat) (lines : List (List Char)) (line : List Char) :
    reached maxSteps (lines ++ [line]) =
      reached maxSteps lines ++
        if Input.stops maxSteps (lines.flatMap Input.readable) then [] else [(line, lines.length + 1)] := by
  unfold reached
  rw [List.zipIdx_append, List.filter_append]
  congr 1
  · refine List.filter_congr ?_
    intro entry hentry
    have hbefore : entry.2 - 1 ≤ lines.length := by
      have := List.snd_lt_add_of_mem_zipIdx hentry
      omega
    rw [List.take_append_of_le_length hbefore]
  · have hbefore : (lines ++ [line]).take (lines.length + 1 - 1) = lines := by
      rw [Nat.add_sub_cancel, List.take_left]
    rw [List.zipIdx_singleton, Nat.add_comm 1, List.filter_cons, List.filter_nil]
    dsimp only
    rw [hbefore]
    cases Input.stops maxSteps (lines.flatMap Input.readable) <;> rfl

namespace Machine

variable {m : Machine}

section Fresh

variable (hrunning : m.isShutDown = false) (hsteps : m.steps = 0)
include hrunning hsteps

theorem canStep_fresh : m.canStep = true := by
  rw [canStep_iff, hsteps]
  exact ⟨hrunning, Nat.eq_zero_or_pos m.maxSteps⟩

theorem canStep_takeTexts (lines : List (List Char)) :
    (m.takeTexts 1 lines).1.canStep = !Input.stops m.maxSteps (lines.flatMap Input.readable) := by
  rw [canStep_congr (state_takeTexts (canStep_fresh hrunning hsteps) 1 lines)]
  exact canStep_feed hrunning hsteps _

/-- **There is a complaint about each line that is reached and has a fault.** -/
theorem complaints_takeTexts (lines : List (List Char)) :
    (m.takeTexts 1 lines).1.complaints =
      m.complaints ++ Input.faults (reached m.maxSteps lines) := by
  have hfresh := canStep_fresh hrunning hsteps
  induction lines using List.reverseRecOn with
  | nil => exact (List.append_nil _).symm
  | append_singleton lines line ih =>
    rw [takeTexts_append hfresh, canStep_takeTexts hrunning hsteps, reached_concat]
    cases hstops : Input.stops m.maxSteps (lines.flatMap Input.readable) with
    | true =>
      rw [if_neg (by decide), if_pos rfl, List.append_nil]
      exact ih
    | false =>
      have hgoes : (m.takeTexts 1 lines).1.canStep = true := by
        rw [canStep_takeTexts hrunning hsteps, hstops]
        rfl
      rw [if_pos Bool.not_false, if_neg (by decide), takeTexts_singleton hgoes, complaints_takeLine, ih,
        List.append_assoc, Nat.add_comm 1, Input.faults_concat]

/-- **Lines after the stop are not looked at.** -/
theorem takeTexts_of_stops (lines : List (List Char)) {k : Nat}
    (h : Input.stops m.maxSteps ((lines.take k).flatMap Input.readable) = true) :
    m.takeTexts 1 lines = m.takeTexts 1 (lines.take k) := by
  have hstop : ¬ (m.takeTexts 1 (lines.take k)).1.canStep = true := by
    rw [canStep_takeTexts hrunning hsteps, h]
    decide
  have hsnd := takeTexts_snd (canStep_fresh hrunning hsteps) 1 (lines.take k)
  conv_lhs => rw [← List.take_append_drop k lines]
  rw [takeTexts_append (canStep_fresh hrunning hsteps), if_neg hstop]
  exact Prod.ext rfl hsnd.symm

end Fresh

theorem complaints_start (preferences : Settings.Preferences) (maxSteps : Nat) :
    (start preferences maxSteps).render.complaints = [] := rfl

theorem interact_eq (m : Machine) (text : List Char) :
    m.interact (Text.Utf8.decode (Text.Utf8.encode text)) = m.render.takeTexts 1 (Text.lines text) := by
  unfold interact takeTexts
  rw [Text.Utf8.decode_encode, Text.scannedLines_map_some]

/-- A line that cannot be read is answered by one line with its number, and nothing else comes of it. -/
theorem takeLine_of_error (m : Machine) {number : Nat} {line : List Char} {cause : ScriptError}
    (h : Input.ofLine number line = .error cause) (hline : '\n' ∉ line) :
    m.takeLine number line =
        ({ m with outputs := .complaint cause :: m.outputs, logs := .ignoredLine cause :: m.logs }, true) ∧
      ∃ fault : LineError, cause = .line number fault ∧
        (Output.complaint cause).text =
          "? Parse error at line " ++ toString number ++ ": " ++ fault.message ∧
        '\n' ∉ (Output.complaint cause).text.toList := by
  have hfault : Input.fault? number line = some cause := by
    rw [Input.ofLine_eq] at h
    split at h
    · next hfault =>
      cases h
      exact hfault
    · cases h
  refine ⟨?_, ?_⟩
  · rw [takeLine_eq, hfault]
    rfl
  · have honeLine := not_mem_text_complaint hfault hline
    unfold Input.fault? at hfault
    split at hfault
    · cases hfault
    · next fault _ =>
      cases hfault
      refine ⟨fault, rfl, ?_, honeLine⟩
      unfold Output.text ScriptError.message
      simp only [← String.append_assoc]
      rfl

end Machine

/-- **A dialogue over a text and a script of it agree, and lines that cannot be read are harmless.**
Both end in the state of a machine that makes the steps that are allowed of all inputs. -/
theorem dialogue_agrees_with_script (preferences : Settings.Preferences) (maxSteps : Nat)
    (text : List Char) :
    let fresh := Machine.start preferences maxSteps
    let lines := Text.lines text
    let inputs := lines.flatMap Input.readable
    let fed := (Input.allowed maxSteps inputs).foldl Machine.step fresh
    let held := fresh.interact (Text.Utf8.decode (Text.Utf8.encode text))
    (held.2 = none ∧ held.1.state = fed.state) ∧
      -- There is a complaint about each line before the stop that cannot be read, and it is harmless.
      (held.1.complaints = Input.faults (reached maxSteps lines) ∧
        ∀ (m : Machine) (number : Nat), ∀ line ∈ lines, ∀ cause,
          Input.ofLine number line = .error cause →
          m.takeLine number line =
              ({ m with outputs := .complaint cause :: m.outputs
                        logs := .ignoredLine cause :: m.logs }, true) ∧
            ∃ fault : LineError, cause = .line number fault ∧
              (Output.complaint cause).text =
                "? Parse error at line " ++ toString number ++ ": " ++ fault.message ∧
              '\n' ∉ (Output.complaint cause).text.toList) ∧
      -- Lines after the stop might as well not be there.
      (∀ k, Input.stops maxSteps ((lines.take k).flatMap Input.readable) = true →
        held = fresh.render.takeTexts 1 (lines.take k)) ∧
      (∀ script, Input.ofScript text = .ok script → (fresh.run script).state = fed.state) ∧
      Input.ofScript text =
        match (Input.faults (lines.zipIdx 1)).head? with
        | some cause => .error cause
        | none => if inputs.isEmpty then .error .empty else .ok inputs := by
  intro fresh lines inputs fed held
  have hheld : held = fresh.render.takeTexts 1 lines := Machine.interact_eq fresh text
  have hfresh : fresh.render.canStep = true := Machine.canStep_fresh rfl rfl
  have hfed : fresh.feed inputs = fed := Machine.feed_eq_foldl_allowed rfl rfl inputs
  refine ⟨⟨?_, ?_⟩, ⟨?_, ?_⟩, ?_, ?_, Input.ofScript_eq text⟩
  · rw [hheld]
    exact Machine.takeTexts_snd hfresh 1 lines
  · rw [hheld, Machine.state_takeTexts hfresh, ← hfed]
    have hstate : fresh.render.state = fresh.state := rfl
    exact Machine.feed_congr hstate inputs
  · rw [hheld, Machine.complaints_takeTexts rfl rfl, Machine.complaints_start]
    rfl
  · intro m number line hline cause h
    exact m.takeLine_of_error h (Text.not_mem_of_mem_lines hline)
  · intro k hstops
    rw [hheld]
    exact Machine.takeTexts_of_stops rfl rfl lines hstops
  · intro script hscript
    rw [Input.eq_of_ofScript hscript, Machine.state_run, hfed]

end PocketCalculator.Host
