/-!
# Cutting texts

Places in a text are counted in the octets of its UTF-8. A character that is cut through counts as
read: it is taken with what comes before the cut.

The `append` lemmas say that a cut between two texts gives both back.
-/

namespace PocketCalculator.Text

def octets : List Char → Nat
  | [] => 0
  | c :: rest => c.utf8Size + octets rest

/-- The part of a text before a place. -/
def before : Nat → List Char → List Char
  | _, [] => []
  | 0, _ :: _ => []
  | place + 1, c :: rest => c :: before (place + 1 - c.utf8Size) rest

/-- The part of a text from a place on. -/
def fromPlace : Nat → List Char → List Char
  | _, [] => []
  | 0, c :: rest => c :: rest
  | place + 1, c :: rest => fromPlace (place + 1 - c.utf8Size) rest

/-- The part of a text from one place up to another. -/
def between (start stop : Nat) (text : List Char) : List Char :=
  before (stop - start) (fromPlace start text)

/-! ## Small facts -/

@[simp] theorem octets_nil : octets [] = 0 := rfl

@[simp] theorem octets_cons (c : Char) (rest : List Char) :
    octets (c :: rest) = c.utf8Size + octets rest := rfl

@[simp] theorem before_zero (text : List Char) : before 0 text = [] := by
  cases text <;> rfl

@[simp] theorem fromPlace_zero (text : List Char) : fromPlace 0 text = text := by
  cases text <;> rfl

theorem before_octets_append (a b : List Char) : before (octets a) (a ++ b) = a := by
  induction a with
  | nil => simp
  | cons c a ih =>
    obtain ⟨n, hn⟩ := Nat.exists_eq_succ_of_ne_zero (Nat.pos_iff_ne_zero.mp c.utf8Size_pos)
    rw [octets_cons, List.cons_append, hn, Nat.succ_add, before, hn]
    simp only [Nat.succ_eq_add_one, List.cons.injEq, true_and]
    rw [show n + octets a + 1 - (n + 1) = octets a by omega, ih]

theorem fromPlace_octets_append (a b : List Char) : fromPlace (octets a) (a ++ b) = b := by
  induction a with
  | nil => simp
  | cons c a ih =>
    obtain ⟨n, hn⟩ := Nat.exists_eq_succ_of_ne_zero (Nat.pos_iff_ne_zero.mp c.utf8Size_pos)
    rw [octets_cons, List.cons_append, hn, Nat.succ_add, fromPlace, hn]
    rw [show n + octets a + 1 - (n.succ) = octets a by omega, ih]

end PocketCalculator.Text
