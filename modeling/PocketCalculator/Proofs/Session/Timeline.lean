import Mathlib.Data.List.Chain
import PocketCalculator.Session

/-!
# Timelines

A row of editors with a place in it. An input that changes the editor cuts the row behind the place
and goes on there; undo and redo only move the place. `Timeline.Valid` is what no request gives up:
the row is not longer than the limit allows, and no two neighbours in it are equal.
-/

namespace PocketCalculator

/-- A row of editors, the oldest first, one of which is current. -/
@[ext]
structure Timeline where
  states : List Editor
  index : Nat
  index_lt : index < states.length

namespace Timeline

def start (editor : Editor) : Timeline :=
  ⟨[editor], 0, by simp⟩

def current (t : Timeline) : Editor :=
  t.states.get ⟨t.index, t.index_lt⟩

/-- Drops the oldest editor if more than `limit` lie before the current one. -/
def trim (limit : Nat) (t : Timeline) : Timeline :=
  if h : limit < t.index then
    ⟨t.states.drop 1, t.index - 1, by have := t.index_lt; rw [List.length_drop]; omega⟩
  else t

/-- Cuts what lies after the current editor and appends another one, which becomes current. -/
def append (t : Timeline) (next : Editor) : Timeline :=
  ⟨t.states.take (t.index + 1) ++ [next], t.index + 1, by
    have := t.index_lt
    rw [List.length_append, List.length_take, List.length_singleton]
    omega⟩

/-- Goes on to an editor, unless it is the current one. -/
def advance (limit : Nat) (t : Timeline) (next : Editor) : Timeline :=
  if next = t.current then t else (t.append next).trim limit

def back? (t : Timeline) : Option Timeline :=
  if 0 < t.index then
    some ⟨t.states, t.index - 1, Nat.lt_of_le_of_lt (Nat.sub_le ..) t.index_lt⟩
  else none

def forth? (t : Timeline) : Option Timeline :=
  if h : t.index + 1 < t.states.length then some ⟨t.states, t.index + 1, h⟩ else none

theorem trim_of_le {limit : Nat} {t : Timeline} (h : t.index ≤ limit) : t.trim limit = t := by
  rw [trim, dif_neg (Nat.not_lt_of_le h)]

theorem states_trim {limit : Nat} {t : Timeline} (h : limit < t.index) :
    (t.trim limit).states = t.states.drop 1 := by
  rw [trim, dif_pos h]

theorem index_trim {limit : Nat} {t : Timeline} (h : limit < t.index) :
    (t.trim limit).index = t.index - 1 := by
  rw [trim, dif_pos h]

@[simp] theorem index_append (t : Timeline) (next : Editor) :
    (t.append next).index = t.index + 1 := rfl

@[simp] theorem length_append (t : Timeline) (next : Editor) :
    (t.append next).states.length = t.index + 2 := by
  have hlt := t.index_lt
  simp only [append, List.length_append, List.length_take, List.length_singleton]
  omega

end Timeline

namespace Editor

open Session (Request)

/-- The editor that an action leads to. -/
def act (s : Editor) : Action → Editor
  | .edit event => s.apply event
  | .evaluate => s.commit s.evaluate

/-- The editor that an input leads to, and nothing for a request that is no input to the editor. -/
def target? (s : Editor) : Request → Option Editor
  | .event event => some (s.act (.edit event))
  | .key key => some (((key.action? s.cursor).map s.act).getD s)
  | .press label => some (((Action.ofLabel? label).map s.act).getD s)
  | .setMode mode => some (if s.mode = mode then s else s.act (.edit .modeToggle))
  | .evaluate => some (s.act .evaluate)
  | .undo | .redo | .clearHistory => none

end Editor

namespace Timeline

open Session (Request)

/-- What a request does to the row. -/
def step (limit : Nat) (t : Timeline) (request : Request) : Timeline :=
  match t.current.target? request with
  | some next => t.advance limit next
  | none =>
    match request with
    | .undo => t.back?.getD t
    | .redo => t.forth?.getD t
    | _ => t

def run (limit : Nat) (t : Timeline) (requests : List Request) : Timeline :=
  requests.foldl (step limit) t

/-! ## Rows that requests make -/

/-- At most `limit` editors beside the current one, and no two neighbours are equal. -/
structure Valid (limit : Nat) (t : Timeline) : Prop where
  bounded : t.states.length ≤ limit + 1
  distinct : t.states.IsChain (· ≠ ·)

theorem Valid.start (limit : Nat) (editor : Editor) : (Timeline.start editor).Valid limit where
  bounded := by simp [Timeline.start]
  distinct := .singleton editor

/-- The last editor that a cut leaves is the current one. -/
theorem getLast?_take (t : Timeline) :
    (t.states.take (t.index + 1)).getLast? = some t.current := by
  have h := t.index_lt
  rw [List.getLast?_eq_getElem?, List.length_take, Nat.min_eq_left h, Nat.succ_sub_one,
    List.getElem?_take_of_lt (Nat.lt_succ_self _), List.getElem?_eq_getElem h]
  rfl

theorem Valid.advance {limit : Nat} {t : Timeline} (h : t.Valid limit) (next : Editor) :
    (t.advance limit next).Valid limit := by
  unfold Timeline.advance
  split
  · exact h
  · next hne =>
    have hchain : (t.append next).states.IsChain (· ≠ ·) := by
      refine List.isChain_append.mpr ⟨h.distinct.take _, .singleton next, ?_⟩
      intro a ha b hb
      rw [getLast?_take] at ha
      obtain rfl := Option.some.inj (Option.mem_def.mp ha)
      obtain rfl := Option.some.inj (Option.mem_def.mp hb)
      exact fun he => hne he.symm
    have hlt := t.index_lt
    have hbound := h.bounded
    by_cases hfull : limit < (t.append next).index
    · constructor
      · rw [states_trim hfull, List.length_drop, length_append]
        omega
      · rw [states_trim hfull]
        exact hchain.drop 1
    · rw [trim_of_le (Nat.le_of_not_lt hfull)]
      rw [index_append] at hfull
      refine ⟨?_, hchain⟩
      rw [length_append]
      omega

theorem Valid.step {limit : Nat} {t : Timeline} (h : t.Valid limit) (request : Request) :
    (t.step limit request).Valid limit := by
  unfold Timeline.step
  split
  · exact h.advance _
  · split
    · unfold back?
      split
      · exact ⟨h.bounded, h.distinct⟩
      · exact h
    · unfold forth?
      split
      · exact ⟨h.bounded, h.distinct⟩
      · exact h
    · exact h

/-- **All rows that requests make are valid.** -/
theorem Valid.run {limit : Nat} {t : Timeline} (h : t.Valid limit) (requests : List Request) :
    (t.run limit requests).Valid limit := by
  induction requests generalizing t with
  | nil => exact h
  | cons request requests ih => exact ih (h.step request)

end Timeline

end PocketCalculator
