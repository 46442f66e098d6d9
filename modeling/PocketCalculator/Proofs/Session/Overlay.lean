import PocketCalculator.Proofs.Editor.Overlay
import PocketCalculator.Proofs.Session.Refinement

/-!
# Overlays

What an evaluation lays over the entry is left by the next event that the layout shows: it does what it
does after the entry is cleared (`Editor.apply_overlaid`). To evaluate does not leave it
(`Session.evaluate_overlaid`). So an overlay is a state of its own, into which only an evaluation leads
(`overlay_closed`).
-/

namespace PocketCalculator

namespace Session

/-! ## Staying at an overlay -/

/-- The replies to requests, in order. -/
def replies (s : Session) : List Request → List Reply
  | [] => []
  | request :: rest => (s.step request).2 :: (s.step request).1.replies rest

/-- To evaluate at an overlay leaves the whole session as it is, the history included. -/
theorem evaluate_overlaid {s : Session} {overlay : Overlay} (h : s.editor.overlay = some overlay) :
    s.evaluate = (s, .evaluated overlay.evaluation) := by
  obtain ⟨hevaluate, hcommit⟩ := Editor.commit_evaluate_overlaid h
  have hshown : s.editor.overlay.isNone = false := by
    rw [h]
    rfl
  dsimp only [evaluate]
  rw [hcommit, hshown, Bool.false_and, if_neg Bool.false_ne_true, moveTo_self, hevaluate]

theorem step_evaluate_overlaid {s : Session} {overlay : Overlay}
    (h : s.editor.overlay = some overlay) :
    s.step .evaluate = (s, .outcome (.evaluated overlay.evaluation)) := by
  dsimp only [step]
  rw [evaluate_overlaid h]
  rfl

theorem run_evaluate_overlaid {s : Session} {overlay : Overlay}
    (h : s.editor.overlay = some overlay) (count : Nat) :
    s.run (List.replicate count .evaluate) = s ∧
      s.replies (List.replicate count .evaluate) =
        List.replicate count (.outcome (.evaluated overlay.evaluation)) := by
  induction count with
  | zero => exact ⟨rfl, rfl⟩
  | succ count ih =>
    have hstep := step_evaluate_overlaid h
    obtain ⟨hrun, hreplies⟩ := ih
    constructor
    · calc s.run (List.replicate (count + 1) .evaluate)
          = (s.step .evaluate).1.run (List.replicate count .evaluate) := rfl
        _ = s := by rw [hstep, hrun]
    · rw [List.replicate_succ, List.replicate_succ, replies, hstep, hreplies]

end Session

/-- **An overlay is closed.** An event that the layout does not show leaves it as it is, and any other
one leads where it leads after the entry is cleared, and away from the overlay. A session that shows one
answers every evaluation with what the overlay stands for, and none of them changes anything. -/
theorem overlay_closed :
    (∀ (s : Editor) (event : Event), s.overlay.isSome = true →
      (s.layout.accepts s.mode event = false → s.apply event = s) ∧
      (s.layout.accepts s.mode event = true →
        s.apply event = (s.apply .clear).apply event ∧ (s.apply event).overlay = none)) ∧
    ∀ (s : Session) (overlay : Overlay), s.editor.overlay = some overlay → ∀ count : Nat,
      s.run (List.replicate count .evaluate) = s ∧
        s.replies (List.replicate count .evaluate) =
          List.replicate count (.outcome (.evaluated overlay.evaluation)) := by
  constructor
  · intro s event hoverlay
    refine ⟨Editor.apply_refused, fun haccepts => ?_⟩
    have hclear : s.apply .clear = s.reset := Editor.apply_overlaid hoverlay rfl
    have happly : s.apply event = s.reset.perform event := Editor.apply_overlaid hoverlay haccepts
    constructor
    · rw [hclear, happly]
      exact (Editor.apply_reset haccepts).symm
    · rw [happly]
      exact Editor.overlay_perform (s := s.reset) rfl event
  · intro s overlay hoverlay count
    exact Session.run_evaluate_overlaid hoverlay count

/-- An error lies over an entry that is not well formed, and a range of the hidden entry is deleted. -/
theorem overlay_hides_entry :
    let overlay : Overlay := .error .notFinite
    let s : Editor := { Editor.ofText "1..2".toList with cursor := 1, overlay := some overlay }
    let session : Session := .start s 3 3
    s.overlay.isSome = true ∧ s.buffer.isWellFormed = false ∧
      s.layout.accepts s.mode (.delete 1 9) = true ∧
      (s.apply (.delete 1 9) = (s.apply .clear).apply (.delete 1 9) ∧
        (s.apply (.delete 1 9)).overlay = none) ∧
      session.editor.overlay = some overlay ∧
      session.run (List.replicate 2 .evaluate) = session ∧
      session.replies (List.replicate 2 .evaluate) =
        List.replicate 2 (.outcome (.evaluated (.error .notFinite))) := by
  intro overlay s session
  have hoverlay : s.overlay.isSome = true := rfl
  have haccepts : s.layout.accepts s.mode (.delete 1 9) = true := rfl
  have hsession : session.editor.overlay = some overlay := rfl
  exact ⟨hoverlay, by decide, haccepts, (overlay_closed.1 s (.delete 1 9) hoverlay).2 haccepts,
    hsession, overlay_closed.2 session overlay hsession 2⟩

end PocketCalculator
