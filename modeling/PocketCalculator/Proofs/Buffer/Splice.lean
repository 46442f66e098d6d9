import PocketCalculator.Proofs.Editor.Around
import PocketCalculator.Proofs.Text.LineEnd
import PocketCalculator.Proofs.Text.Utf8

/-!
# Changing a range

A range of an entry is counted in characters, and the text of an entry is held in octets. A change looks
up the octets at which the range starts and stops, puts the octets of the new text between them, and
reads what comes out as a text again (`Encoded.splice`). That fails if a character is cut. It never does,
whatever range is asked for, and it gives what the definition on characters gives (`Encoded.splice_eq`).
`splice_exact` says what that is.
-/

namespace PocketCalculator

namespace Text.Utf8

theorem encode_cons (c : Char) (text : List Char) :
    encode (c :: text) = String.utf8EncodeChar c ++ encode text :=
  List.flatMap_cons

theorem encode_append (a b : List Char) : encode (a ++ b) = encode a ++ encode b :=
  List.flatMap_append

theorem encode_eq_nil {text : List Char} : encode text = [] ↔ text = [] := by
  cases text with
  | nil => simp [encode]
  | cons c text => simp [encode_cons, String.utf8EncodeChar_ne_nil]

/-- A text is read back from its octets. -/
theorem decode?_encode (text : List Char) : decode? (encode text) = some text := by
  rw [decode?, decode_encode, toText?_map_some]

/-! ## Places between octets -/

/-- The places in the octets of a text at which its characters start, where the first does at `place`. -/
def starts (place : Nat) : List Char → List Nat
  | [] => []
  | c :: text => place :: starts (place + (String.utf8EncodeChar c).length) text

/-- The place at which the character of a position starts, or the end where there is none. -/
def placeOf (text : List Char) (pos : Nat) : Nat :=
  (starts 0 text)[pos]?.getD (encode text).length

/-- An octet that does not go on with a character. -/
def isFirst (b : UInt8) : Bool :=
  b < 0x80 || 0xC0 ≤ b

/-- No character is cut at a place: it is the end, or the octet there is a first one. -/
def isBoundary (octets : List UInt8) (place : Nat) : Bool :=
  place == octets.length || octets[place]?.any isFirst

/-- Puts octets in the place of a range that is not reversed and cuts no character. -/
def replaceRange (octets : List UInt8) (start stop : Nat) (more : List UInt8) : Option (List UInt8) :=
  if start ≤ stop ∧ isBoundary octets start = true ∧ isBoundary octets stop = true then
    some (octets.take start ++ more ++ octets.drop stop)
  else none

theorem starts_getD (text : List Char) (place pos : Nat) :
    (starts place text)[pos]?.getD (place + (encode text).length) =
      place + (encode (text.take pos)).length := by
  induction text generalizing place pos with
  | nil => simp [starts]
  | cons c text ih =>
    cases pos with
    | zero => simp [starts, encode]
    | succ pos =>
      have hrest := ih (place + (String.utf8EncodeChar c).length) pos
      simp only [Nat.add_assoc] at hrest
      simp only [starts, List.getElem?_cons_succ, List.take_succ_cons, encode_cons, List.length_append]
      exact hrest

/-- Before the place of a position are the octets of the characters before the position. -/
theorem placeOf_eq (text : List Char) (pos : Nat) :
    placeOf text pos = (encode (text.take pos)).length := by
  simpa [placeOf] using starts_getD text 0 pos

theorem placeOf_mono (text : List Char) {m n : Nat} (h : m ≤ n) : placeOf text m ≤ placeOf text n := by
  obtain ⟨more, rfl⟩ := Nat.exists_eq_add_of_le h
  rw [placeOf_eq, placeOf_eq, List.take_add, encode_append, List.length_append]
  exact Nat.le_add_right ..

theorem isFirst_ofNat {n : Nat} (h : n < 0x80 ∨ 0xC0 ≤ n ∧ n < 0x100) :
    isFirst (UInt8.ofNat n) = true := by
  have hnat : (UInt8.ofNat n).toNat = n := by
    rw [UInt8.toNat_ofNat']
    omega
  simp only [isFirst, Bool.or_eq_true, decide_eq_true_eq, UInt8.lt_iff_toNat_lt,
    UInt8.le_iff_toNat_le, hnat]
  exact h.imp_right And.left

theorem utf8EncodeChar_eq_cons (c : Char) :
    ∃ b more, String.utf8EncodeChar c = b :: more ∧ isFirst b = true := by
  unfold String.utf8EncodeChar
  dsimp only
  split
  · exact ⟨_, _, rfl, isFirst_ofNat (by omega)⟩
  · split
    · exact ⟨_, _, rfl, isFirst_ofNat (by omega)⟩
    · split
      · exact ⟨_, _, rfl, isFirst_ofNat (by omega)⟩
      · exact ⟨_, _, rfl, isFirst_ofNat (by omega)⟩

/-- No character is cut between two texts. -/
theorem isBoundary_encode (a b : List Char) :
    isBoundary (encode a ++ encode b) (encode a).length = true := by
  cases b with
  | nil => simp [isBoundary, encode]
  | cons c b =>
    obtain ⟨first, more, hoctets, hfirst⟩ := utf8EncodeChar_eq_cons c
    simp [isBoundary, encode_cons, hoctets, hfirst]

theorem isBoundary_placeOf (text : List Char) (pos : Nat) :
    isBoundary (encode text) (placeOf text pos) = true := by
  have hcut := isBoundary_encode (text.take pos) (text.drop pos)
  rwa [← encode_append, List.take_append_drop, ← placeOf_eq] at hcut

/-- A range of positions cuts no character, and what takes its place is between whole characters. -/
theorem replaceRange_placeOf (chars text : List Char) {start stop : Nat} (h : start ≤ stop) :
    replaceRange (encode chars) (placeOf chars start) (placeOf chars stop) (encode text) =
      some (encode (chars.take start ++ text ++ chars.drop stop)) := by
  have hparts : ∀ pos, encode chars = encode (chars.take pos) ++ encode (chars.drop pos) := by
    intro pos
    rw [← encode_append, List.take_append_drop]
  have htake : (encode chars).take (placeOf chars start) = encode (chars.take start) := by
    rw [placeOf_eq, hparts start, List.take_left]
  have hdrop : (encode chars).drop (placeOf chars stop) = encode (chars.drop stop) := by
    rw [placeOf_eq, hparts stop, List.drop_left]
  rw [replaceRange, if_pos ⟨placeOf_mono chars h, isBoundary_placeOf .., isBoundary_placeOf ..⟩, htake,
    hdrop, encode_append, encode_append]

end Text.Utf8

namespace Encoded

open Text.Utf8

/-- Puts a text in the place of a range, in octets. -/
def splice (b : Buffer) (start stop : Nat) (text : List Char) : Option (Buffer × Nat) := do
  let stop := min stop b.length
  let start := min start stop
  let octets ← replaceRange (encode b.chars) (placeOf b.chars start) (placeOf b.chars stop) (encode text)
  let chars ← decode? octets
  some (.ofChars chars, if octets = [] then Buffer.zero.length else start + text.length)

/-- In octets a change never fails, and it is the change in characters. -/
theorem splice_eq (b : Buffer) (start stop : Nat) (text : List Char) :
    splice b start stop text = some (b.splice start stop text) := by
  have hrange : min start (min stop b.length) ≤ min stop b.length := Nat.min_le_right ..
  rw [splice, replaceRange_placeOf b.chars text hrange]
  simp only [Option.bind_eq_bind, Option.bind_some, decode?_encode, encode_eq_nil]
  rfl

end Encoded

namespace Buffer

/-! ## Changes in characters -/

theorem chars_ofChars_eq (chars : List Char) :
    (ofChars chars).chars = if chars = [] then ['0'] else chars := by
  by_cases h : chars = []
  · simp [h, zero]
  · simp [h, chars_ofChars]

variable (b : Buffer)

/-- There is something to take out if the range is not empty after it is clamped. -/
theorem erase?_eq (start stop : Nat) :
    b.erase? start stop =
      if min start (min stop b.length) < min stop b.length then some (b.splice start stop []).1
      else none := by
  have hclamped : start < min stop b.length ↔ min start (min stop b.length) < min stop b.length := by
    omega
  simp only [erase?, hclamped]

/-- To take out a range leaves what a change of it to nothing leaves. -/
theorem erase?_getD (start stop : Nat) :
    (b.erase? start stop).getD b = (b.splice start stop []).1 := by
  unfold erase?
  split
  · rfl
  · next hempty =>
    have hstart : min start (min stop b.length) = min stop b.length := by omega
    simp [splice, hstart]

/-- What goes in at a position goes between what is before it and what is after it. -/
theorem insert_eq (pos : Nat) (text : List Char) :
    (b.insert pos text).1.chars = b.chars.take pos ++ text ++ b.chars.drop pos ∧
      (b.insert pos text).2 = (b.chars.take pos).length + text.length := by
  have hchars : b.chars = b.chars.take pos ++ [] ++ b.chars.drop pos := by simp
  have hne : b.chars.take pos ++ text ++ b.chars.drop pos ≠ [] := by
    intro hnil
    simp only [List.append_eq_nil_iff] at hnil
    exact b.ne_nil (by rw [hchars]; simp [hnil])
  have hclamped : b.insert pos text =
      b.splice (b.chars.take pos).length ((b.chars.take pos).length + ([] : List Char).length) text := by
    simp [insert, splice, length]
  rw [hclamped, splice_middle hchars, if_neg hne]
  exact ⟨chars_ofChars hne, rfl⟩

/-- What was put in is taken out again. -/
theorem erase?_insert (pos : Nat) (text : List Char) :
    ((b.insert pos text).1.erase? (b.chars.take pos).length (b.insert pos text).2).getD
      (b.insert pos text).1 = b := by
  obtain ⟨hchars, hafter⟩ := b.insert_eq pos text
  rw [erase?_getD, hafter, splice_parts hchars, List.append_nil, List.take_append_drop, ofChars_chars]

/-- **A change is exact in characters.** What is outside the clamped range is kept, character by
character, and where nothing would be left there is a single zero. The position handed back is the one
behind the new text. A range is taken out if there is anything in it, and what was put in can be taken
out again. -/
theorem splice_exact (start stop : Nat) (text : List Char) :
    let stop' := min stop b.length
    let start' := min start stop'
    let chars := b.chars.take start' ++ text ++ b.chars.drop stop'
    let changed := b.splice start stop text
    (Encoded.splice b start stop text = some changed ∧
        changed.1.chars = (if chars = [] then ['0'] else chars) ∧
        changed.2 = (if chars = [] then 1 else start' + text.length) ∧
        changed.2 ≤ changed.1.length) ∧
      b.erase? start stop = (if start' < stop' then some (b.splice start stop []).1 else none) ∧
      ∀ pos, let inserted := b.insert pos text
        inserted.2 = min pos b.length + text.length ∧
          (inserted.1.erase? (min pos b.length) inserted.2).getD inserted.1 = b := by
  intro stop' start' chars changed
  refine ⟨⟨Encoded.splice_eq b start stop text, chars_ofChars_eq chars, rfl,
    splice_snd_le b start stop text⟩, b.erase?_eq start stop, fun pos => ?_⟩
  have hlength : (b.chars.take pos).length = min pos b.length := List.length_take
  rw [← hlength]
  exact ⟨(b.insert_eq pos text).2, b.erase?_insert pos text⟩

end Buffer

end PocketCalculator
