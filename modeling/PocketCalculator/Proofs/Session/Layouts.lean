import PocketCalculator.Proofs.Session.History
import PocketCalculator.Proofs.Session.Overlay
import PocketCalculator.Proofs.Session.Snapshot

/-!
# The same requests on two layouts

A layout says which events are accepted, and nothing else depends on it: an edit does the same on every
layout (`Editor.perform_onLayout`). The keyboard shows what the classic layout shows in either mode, so it
accepts whatever that accepts (`Layout.accepts_of_classic`). Two sessions that are alike but for their
layouts stay so as long as they are asked for what the classic layout accepts, and give the same replies
(`Session.layouts_agree`).
-/

namespace PocketCalculator

/-! ## What layouts accept -/

namespace Layout

/-- More labels let more events through. -/
theorem accepts_mono {smaller larger : Layout}
    (h : ∀ mode, smaller.labels mode ⊆ larger.labels mode) {mode : Mode} {event : Event}
    (haccepts : smaller.accepts mode event = true) : larger.accepts mode event = true := by
  have hshows : ∀ label, smaller.shows mode label = true → larger.shows mode label = true := by
    intro label hlabel
    rw [shows, List.contains_iff_mem] at hlabel ⊢
    exact h mode hlabel
  cases event with
  | digit c =>
    dsimp only [accepts] at haccepts ⊢
    split
    · next constant hconstant =>
      rw [hconstant] at haccepts
      exact hshows _ haccepts
    · next hconstant =>
      rw [hconstant] at haccepts
      exact haccepts
  | function key => exact hshows _ haccepts
  | bracket => exact hshows _ haccepts
  | signToggle => exact hshows _ haccepts
  | _ => rfl

/-- Every layout accepts what the classic one accepts. -/
theorem accepts_of_classic {layout : Layout} (h : layout ∈ all) {mode : Mode} {event : Event}
    (haccepts : classic.accepts mode event = true) : layout.accepts mode event = true := by
  simp only [all, List.mem_cons, List.not_mem_nil, or_false] at h
  rcases h with rfl | rfl
  · exact haccepts
  · refine accepts_mono (fun mode => ?_) haccepts
    cases mode with
    | basic => exact List.subset_append_left _ _
    | scientific => exact List.subset_append_left _ _

end Layout

/-! ## Editors on two layouts -/

namespace Editor

/-- The editor on another layout. -/
def onLayout (s : Editor) (layout : Layout) : Editor :=
  { s with layout }

section OnLayout

variable (s : Editor) (layout : Layout)

theorem insertDigit_onLayout (c : Char) :
    (s.onLayout layout).insertDigit c = (s.insertDigit c).onLayout layout := by
  unfold insertDigit
  rw [apply_ite (onLayout · layout), apply_ite (onLayout · layout)]
  rfl

theorem insertConstant_onLayout (constant : Constant) :
    (s.onLayout layout).insertConstant constant = (s.insertConstant constant).onLayout layout := by
  unfold insertConstant
  simp only [apply_ite (onLayout · layout)]
  rfl

theorem insertOperator_onLayout (c : Char) :
    (s.onLayout layout).insertOperator c = (s.insertOperator c).onLayout layout := by
  unfold insertOperator
  dsimp only
  rw [apply_ite (onLayout · layout)]
  rfl

theorem insertPoint_onLayout :
    (s.onLayout layout).insertPoint = s.insertPoint.onLayout layout := by
  unfold insertPoint
  simp only [apply_ite (onLayout · layout)]
  rfl

theorem insertPercent_onLayout :
    (s.onLayout layout).insertPercent = s.insertPercent.onLayout layout := by
  unfold insertPercent
  rw [apply_ite (onLayout · layout)]
  rfl

theorem insertBracket_onLayout :
    (s.onLayout layout).insertBracket = s.insertBracket.onLayout layout := by
  have hcloses : (s.onLayout layout).bracketCloses = s.bracketCloses := rfl
  have hzero : (s.onLayout layout).buffer.isZero = s.buffer.isZero := rfl
  have hafter : ((s.onLayout layout).afterDigit || (s.onLayout layout).afterClosedOperand) =
      (s.afterDigit || s.afterClosedOperand) := rfl
  unfold insertBracket
  dsimp only
  rw [hcloses, hzero, hafter]
  split
  · rfl
  · split
    · rfl
    · split <;> rfl

theorem delete_onLayout (start stop : Nat) :
    (s.onLayout layout).delete start stop = (s.delete start stop).onLayout layout := by
  unfold delete
  simp only [apply_ite (onLayout · layout)]
  rfl

theorem backspace_onLayout : (s.onLayout layout).backspace = s.backspace.onLayout layout := by
  unfold backspace
  rw [apply_ite (onLayout · layout), ← delete_onLayout]
  rfl

theorem toggleSign_onLayout : (s.onLayout layout).toggleSign = s.toggleSign.onLayout layout := by
  unfold toggleSign
  rw [apply_ite (onLayout · layout)]
  have hbuffer : (s.onLayout layout).buffer = s.buffer := rfl
  rw [hbuffer]
  cases s.buffer.trailingNumber? with
  | none => rfl
  | some start =>
    dsimp only
    rw [apply_ite (onLayout · layout)]
    rfl

theorem applyFunction_onLayout (key : FunctionKey) :
    (s.onLayout layout).applyFunction key = (s.applyFunction key).onLayout layout := by
  unfold applyFunction
  rw [apply_ite (onLayout · layout)]
  rfl

/-- An edit does the same on every layout. -/
theorem perform_onLayout (event : Event) :
    (s.onLayout layout).perform event = (s.perform event).onLayout layout := by
  cases event with
  | digit c =>
    dsimp only [perform]
    split
    · exact insertConstant_onLayout s layout _
    · exact insertDigit_onLayout s layout c
  | operator c => exact insertOperator_onLayout s layout c
  | point => exact insertPoint_onLayout s layout
  | percent => exact insertPercent_onLayout s layout
  | clear => rfl
  | backspace => exact backspace_onLayout s layout
  | delete start stop => exact delete_onLayout s layout start stop
  | signToggle => exact toggleSign_onLayout s layout
  | bracket => exact insertBracket_onLayout s layout
  | function key => exact applyFunction_onLayout s layout key
  | modeToggle => rfl
  | move direction => rfl

theorem edit_onLayout (event : Event) :
    (s.onLayout layout).edit event = (s.edit event).onLayout layout := by
  unfold edit
  rw [apply_ite (onLayout · layout), ← perform_onLayout, ← perform_onLayout]
  rfl

/-- What is accepted on both layouts does the same on both. -/
theorem apply_onLayout {event : Event} (hs : s.layout.accepts s.mode event = true)
    (ht : layout.accepts s.mode event = true) :
    (s.onLayout layout).apply event = (s.apply event).onLayout layout := by
  have haccepts : (s.onLayout layout).layout.accepts (s.onLayout layout).mode event = true := ht
  rw [apply, apply, if_pos hs, if_pos haccepts, edit_onLayout]
  dsimp only
  rw [apply_ite (onLayout · layout)]
  rfl

theorem act_onLayout {action : Action}
    (h : ∀ event, action = .edit event →
      s.layout.accepts s.mode event = true ∧ layout.accepts s.mode event = true) :
    (s.onLayout layout).act action = (s.act action).onLayout layout := by
  cases action with
  | edit event => exact apply_onLayout s layout (h event rfl).1 (h event rfl).2
  | evaluate =>
    have hevaluate : (s.onLayout layout).evaluate = s.evaluate := rfl
    dsimp only [act]
    rw [hevaluate]
    cases s.evaluate <;> rfl

end OnLayout

/-- Two editors that are the same but for their layouts. -/
structure Alike (s t : Editor) : Prop where
  buffer : s.buffer = t.buffer
  cursor : s.cursor = t.cursor
  mode : s.mode = t.mode
  bracketCloses : s.bracketCloses = t.bracketCloses
  overlay : s.overlay = t.overlay

variable {s t : Editor}

theorem alike_iff : s.Alike t ↔ t = s.onLayout t.layout := by
  obtain ⟨buffer, cursor, mode, layout, bracketCloses, overlay⟩ := s
  obtain ⟨buffer', cursor', mode', layout', bracketCloses', overlay'⟩ := t
  constructor
  · rintro ⟨hbuffer, hcursor, hmode, hcloses, hoverlay⟩
    cases hbuffer
    cases hcursor
    cases hmode
    cases hcloses
    cases hoverlay
    rfl
  · intro h
    cases h
    exact ⟨rfl, rfl, rfl, rfl, rfl⟩

theorem alike_onLayout (s : Editor) (layout : Layout) : s.Alike (s.onLayout layout) :=
  ⟨rfl, rfl, rfl, rfl, rfl⟩

/-- Where nothing is asked for that one of the two refuses, they stay alike. -/
theorem Alike.act (h : s.Alike t) {action : Action}
    (haccepts : ∀ event, action = .edit event →
      s.layout.accepts s.mode event = true ∧ t.layout.accepts s.mode event = true) :
    (s.act action).Alike (t.act action) := by
  rw [alike_iff.mp h, act_onLayout s t.layout haccepts]
  exact alike_onLayout _ _

theorem Alike.symm (h : s.Alike t) : t.Alike s :=
  ⟨h.buffer.symm, h.cursor.symm, h.mode.symm, h.bracketCloses.symm, h.overlay.symm⟩

theorem Alike.trans {u : Editor} (h : s.Alike t) (h' : t.Alike u) : s.Alike u :=
  ⟨h.buffer.trans h'.buffer, h.cursor.trans h'.cursor, h.mode.trans h'.mode,
    h.bracketCloses.trans h'.bracketCloses, h.overlay.trans h'.overlay⟩

theorem Alike.eq (h : s.Alike t) (hlayout : s.layout = t.layout) : s = t := by
  rw [alike_iff.mp h, ← hlayout]
  rfl

/-- What leads nowhere else on the one layout leads nowhere else on the other. -/
theorem Alike.eq_iff {next next' : Editor} (h : s.Alike t) (hnext : next.Alike next')
    (hs : next.layout = s.layout) (ht : next'.layout = t.layout) : next = s ↔ next' = t := by
  constructor
  · rintro rfl
    exact (hnext.symm.trans h).eq ht
  · rintro rfl
    exact (hnext.trans h.symm).eq hs

end Editor

/-! ## Sessions on two layouts -/

namespace Session

/-- Two sessions that are the same but for the layouts of their editors. -/
structure Alike (s t : Session) : Prop where
  editor : s.editor.Alike t.editor
  past : List.Forall₂ Editor.Alike s.past t.past
  future : List.Forall₂ Editor.Alike s.future t.future
  records : s.records = t.records
  undoLimit : s.undoLimit = t.undoLimit
  historyLimit : s.historyLimit = t.historyLimit

variable {s t : Session}

theorem forall₂_push {α β : Type} {R : α → β → Prop} {limit : Nat} {newest : α} {newest' : β}
    {stack : List α} {stack' : List β} (hnewest : R newest newest') (h : List.Forall₂ R stack stack') :
    List.Forall₂ R (push limit newest stack) (push limit newest' stack') := by
  have hpushed : List.Forall₂ R (newest :: stack) (newest' :: stack') := .cons hnewest h
  unfold push
  rw [hpushed.length_eq]
  split
  · rw [List.dropLast_eq_take, List.dropLast_eq_take, hpushed.length_eq]
    exact List.forall₂_take _ hpushed
  · exact hpushed

theorem Alike.moveTo (h : s.Alike t) {next next' : Editor} (hnext : next.Alike next')
    (hs : next.layout = s.editor.layout) (ht : next'.layout = t.editor.layout) :
    (s.moveTo next).1.Alike (t.moveTo next').1 ∧ (s.moveTo next).2 = (t.moveTo next').2 := by
  have hsame := h.editor.eq_iff hnext hs ht
  unfold Session.moveTo
  by_cases heq : next = s.editor
  · rw [if_pos heq, if_pos (hsame.mp heq)]
    exact ⟨h, rfl⟩
  · rw [if_neg heq, if_neg fun heq' => heq (hsame.mpr heq')]
    refine ⟨⟨hnext, ?_, .nil, h.records, h.undoLimit, h.historyLimit⟩, rfl⟩
    dsimp only
    rw [h.undoLimit]
    exact forall₂_push h.editor h.past

theorem Alike.remember (h : s.Alike t) (record : Record) :
    (s.remember record).Alike (t.remember record) := by
  refine ⟨h.editor, h.past, h.future, ?_, h.undoLimit, h.historyLimit⟩
  dsimp only [Session.remember]
  rw [h.records, h.historyLimit]

theorem Alike.applyAction (h : s.Alike t) {action : Action}
    (haccepts : ∀ event, action = .edit event →
      s.editor.layout.accepts s.editor.mode event = true ∧
        t.editor.layout.accepts s.editor.mode event = true) :
    (s.applyAction action).1.Alike (t.applyAction action).1 ∧
      (s.applyAction action).2 = (t.applyAction action).2 := by
  have hact := h.editor.act haccepts
  have hs := s.editor.layout_act action
  have ht := t.editor.layout_act action
  cases action with
  | edit event => exact h.moveTo hact hs ht
  | evaluate =>
    have hevaluate : t.editor.evaluate = s.editor.evaluate := by
      rw [Editor.alike_iff.mp h.editor]
      rfl
    dsimp only [Session.applyAction, evaluate]
    rw [hevaluate, ← h.editor.overlay, ← h.editor.buffer]
    dsimp only [Editor.act] at hact hs ht
    rw [hevaluate] at hact ht
    split
    · exact ⟨((h.remember _).moveTo hact hs ht).1, rfl⟩
    · exact ⟨(h.moveTo hact hs ht).1, rfl⟩

theorem Alike.action? (h : s.Alike t) (request : Request) : s.action? request = t.action? request := by
  cases request with
  | key key =>
    dsimp only [Session.action?]
    rw [h.editor.cursor]
  | setMode mode =>
    dsimp only [Session.action?]
    rw [h.editor.mode]
  | _ => rfl

theorem Alike.undo (h : s.Alike t) :
    (s.undo?.getD s).Alike (t.undo?.getD t) ∧ s.undo?.isSome = t.undo?.isSome := by
  unfold undo?
  rcases hs : s.past with _ | ⟨previous, past⟩ <;> rcases ht : t.past with _ | ⟨previous', past'⟩
  · exact ⟨h, rfl⟩
  · exact absurd h.past (by simp [hs, ht])
  · exact absurd h.past (by simp [hs, ht])
  · have hpast := h.past
    rw [hs, ht, List.forall₂_cons] at hpast
    exact ⟨⟨hpast.1, hpast.2, .cons h.editor h.future, h.records, h.undoLimit, h.historyLimit⟩, rfl⟩

theorem Alike.redo (h : s.Alike t) :
    (s.redo?.getD s).Alike (t.redo?.getD t) ∧ s.redo?.isSome = t.redo?.isSome := by
  unfold redo?
  rcases hs : s.future with _ | ⟨following, future⟩ <;>
    rcases ht : t.future with _ | ⟨following', future'⟩
  · exact ⟨h, rfl⟩
  · exact absurd h.future (by simp [hs, ht])
  · exact absurd h.future (by simp [hs, ht])
  · have hfuture := h.future
    rw [hs, ht, List.forall₂_cons] at hfuture
    exact ⟨⟨hfuture.1, .cons h.editor h.past, hfuture.2, h.records, h.undoLimit, h.historyLimit⟩, rfl⟩

theorem snd_step_of_no_action {request : Request} (h : s.action? request = none) :
    (s.step request).2 = match request with
      | .undo => .moved s.undo?.isSome
      | .redo => .moved s.redo?.isSome
      | .clearHistory => .done
      | .press _ => .noSuchKey
      | _ => .outcome .unchanged := by
  cases request with
  | event event => cases h
  | key key =>
    change key.action? s.editor.cursor = none at h
    dsimp only [step, applyKey]
    rw [h]
    rfl
  | press label =>
    change Action.ofLabel? label = none at h
    dsimp only [step, press?]
    rw [h]
    rfl
  | setMode mode =>
    dsimp only [Session.action?] at h
    dsimp only [step, setMode]
    split at h
    · next hmode =>
      rw [if_pos hmode]
      rfl
    · cases h
  | evaluate => cases h
  | _ => rfl

/-- **A request keeps sessions alike** and has the same reply in both, if it is for no edit that one of
the two layouts refuses. -/
theorem Alike.step (h : s.Alike t) {request : Request}
    (haccepts : ∀ event, s.action? request = some (.edit event) →
      s.editor.layout.accepts s.editor.mode event = true ∧
        t.editor.layout.accepts s.editor.mode event = true) :
    (s.step request).1.Alike (t.step request).1 ∧ (s.step request).2 = (t.step request).2 := by
  have hsame := h.action? request
  cases haction : s.action? request with
  | some action =>
    have hactions := h.applyAction fun event (he : action = _) => haccepts event (by rw [haction, he])
    rw [step_of_action haction, step_of_action (hsame ▸ haction)]
    exact ⟨hactions.1, congrArg Reply.outcome hactions.2⟩
  | none =>
    rw [haction] at hsame
    rw [fst_step_of_no_action haction, fst_step_of_no_action hsame.symm,
      snd_step_of_no_action haction, snd_step_of_no_action hsame.symm]
    cases request with
    | undo => exact ⟨h.undo.1, congrArg Reply.moved h.undo.2⟩
    | redo => exact ⟨h.redo.1, congrArg Reply.moved h.redo.2⟩
    | clearHistory =>
      exact ⟨⟨h.editor, h.past, h.future, rfl, h.undoLimit, h.historyLimit⟩, rfl⟩
    | _ => exact ⟨h, rfl⟩

/-! ## Whole runs -/

/-- The edits that requests come down to, each with the mode that it is made in. -/
def edits (s : Session) (requests : List Request) : List (Mode × Event) :=
  (s.visits requests).filterMap fun visit =>
    match visit.1.action? visit.2 with
    | some (.edit event) => some (visit.1.editor.mode, event)
    | _ => none

theorem edits_cons (s : Session) (request : Request) (requests : List Request) :
    s.edits (request :: requests) =
      (match s.action? request with
        | some (.edit event) => [(s.editor.mode, event)]
        | _ => []) ++ (s.step request).1.edits requests := by
  unfold edits
  rw [visits, List.filterMap_cons]
  dsimp only
  rcases s.action? request with _ | _ | _ <;> rfl

theorem layouts_step {P : Layout → Prop} (h : ∀ e ∈ s.editors, P e.layout) (request : Request) :
    ∀ e ∈ (s.step request).1.editors, P e.layout :=
  forall_editors_run (P := fun e => P e.layout) (fun e action he => e.layout_act action ▸ he) h [request]

/-- **The layout decides nothing but what is accepted.** Two sessions that differ only in their layouts
are asked for the same, and for no edit that the classic layout refuses in the mode that the one is in.
Then they give the same replies, and after every request they are the same again but for their layouts:
the entries with their cursors, modes, brackets and overlays, now and in both stacks, and the history. -/
theorem layouts_agree {s t : Session} (halike : s.Alike t)
    (hs : ∀ e ∈ s.editors, e.layout ∈ Layout.all) (ht : ∀ e ∈ t.editors, e.layout ∈ Layout.all)
    {requests : List Request}
    (haccepted : ∀ edit ∈ s.edits requests, Layout.classic.accepts edit.1 edit.2 = true) :
    s.replies requests = t.replies requests ∧
      ∀ done, done <+: requests → (s.run done).Alike (t.run done) := by
  induction requests generalizing s t with
  | nil =>
    refine ⟨rfl, fun done hdone => ?_⟩
    rw [List.prefix_nil.mp hdone]
    exact halike
  | cons request requests ih =>
    rw [edits_cons, List.forall_mem_append] at haccepted
    obtain ⟨hfirst, hrest⟩ := haccepted
    have hstep : (s.step request).1.Alike (t.step request).1 ∧ (s.step request).2 = (t.step request).2 := by
      refine halike.step fun event haction => ?_
      rw [haction] at hfirst
      have hclassic := hfirst _ List.mem_cons_self
      exact ⟨Layout.accepts_of_classic (hs _ s.editor_mem_editors) hclassic,
        Layout.accepts_of_classic (ht _ t.editor_mem_editors) hclassic⟩
    obtain ⟨hreplies, hruns⟩ := ih hstep.1 (layouts_step hs request) (layouts_step ht request) hrest
    refine ⟨?_, fun done hdone => ?_⟩
    · rw [replies, replies, hstep.2, hreplies]
    · rcases done with _ | ⟨first, done⟩
      · exact halike
      · obtain ⟨rfl, hbefore⟩ := List.cons_prefix_cons.mp hdone
        exact hruns done hbefore

/-- On the classic layout and on the keyboard, in both modes, over an undo and an evaluation. -/
theorem classic_agrees_with_keyboard :
    let s : Session := .start { Editor.initial with mode := .scientific } 2 2
    let t : Session := .start { Editor.initial with mode := .scientific, layout := .keyboard } 2 2
    let requests : List Request := [.press "9", .press "√", .undo, .setMode .basic, .press "()",
      .key .enter, .undo, .redo, .clearHistory]
    (s.Alike t ∧ (∀ e ∈ s.editors, e.layout ∈ Layout.all) ∧
        (∀ e ∈ t.editors, e.layout ∈ Layout.all) ∧
        ∀ edit ∈ s.edits requests, Layout.classic.accepts edit.1 edit.2 = true) ∧
      s.edits requests = [(.scientific, .digit '9'), (.scientific, .function .sqrt),
        (.scientific, .modeToggle), (.basic, .bracket)] ∧
      s.replies requests = t.replies requests ∧ (s.run requests).Alike (t.run requests) := by
  intro s t requests
  have halike : s.Alike t := ⟨⟨rfl, rfl, rfl, rfl, rfl⟩, .nil, .nil, rfl, rfl, rfl⟩
  have hs : ∀ e ∈ s.editors, e.layout ∈ Layout.all := by decide
  have ht : ∀ e ∈ t.editors, e.layout ∈ Layout.all := by decide
  have haccepted : ∀ edit ∈ s.edits requests, Layout.classic.accepts edit.1 edit.2 = true := by decide
  obtain ⟨hreplies, hruns⟩ := layouts_agree halike hs ht haccepted
  exact ⟨⟨halike, hs, ht, haccepted⟩, by decide, hreplies, hruns requests (List.prefix_refl _)⟩

end Session

end PocketCalculator
