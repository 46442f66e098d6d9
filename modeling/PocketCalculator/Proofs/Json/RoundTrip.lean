import PocketCalculator.Proofs.Json.Scalars

/-!
# Written values are read back

In either style what is written of a value is read as that value (`ofScanned?_write`). Values with a
number that is no integer or a string that holds no text are not kept, and so are left out (`Kept`).

A value is read in front of anything that a number cannot go on with. That what is written inside
brackets goes back into items or members is shown by induction on them, in step with the reader. Two
calls for each character written are enough, since each call of the readers has one to read.
-/

namespace PocketCalculator.Json

open Text (Scanned)

/-- All of the value is kept when it is written. -/
inductive Kept : Json → Prop where
  | null : Kept null
  | bool (value : Bool) : Kept (bool value)
  | integer (value : Int) : Kept (integer value)
  | string (text : String) : Kept (string text)
  | array {items : List Json} (h : ∀ item ∈ items, Kept item) : Kept (array items)
  | object {members : List (String × Json)} (h : ∀ member ∈ members, Kept member.2) :
    Kept (object members)

/-! ## Blanks -/

section Blanks

variable {blank : Scanned} (h : ∀ item ∈ blank, isSpace item = true) (text : Scanned)
include h

theorem skipSpace_blank : skipSpace (blank ++ text) = skipSpace text :=
  List.dropWhile_append_of_pos h

theorem readValue_blank (fuel : Nat) : readValue fuel (blank ++ text) = readValue fuel text := by
  cases fuel with
  | zero => rfl
  | succ fuel => simp only [readValue, skipSpace_blank h]

theorem readItems_blank (fuel : Nat) (items : List Json) :
    readItems fuel items (blank ++ text) = readItems fuel items text := by
  cases fuel with
  | zero => rfl
  | succ fuel => simp only [readItems, readValue_blank h]

theorem readMembers_blank (fuel : Nat) (members : List (Option String × Json)) :
    readMembers fuel members (blank ++ text) = readMembers fuel members text := by
  cases fuel with
  | zero => rfl
  | succ fuel => simp only [readMembers, readKey, skipSpace_blank h]

end Blanks

theorem isSpace_lineBreak (style : Style) : ∀ item ∈ style.lineBreak.map some, isSpace item = true := by
  intro item hitem
  obtain ⟨c, hc, rfl⟩ := List.mem_map.mp hitem
  cases style with
  | compact => cases hc
  | lines depth =>
    rcases List.mem_cons.mp hc with rfl | hc
    · rfl
    · rw [List.eq_of_mem_replicate hc]
      rfl

theorem skipSpace_cons {item : Option Char} (h : isSpace item = false) (text : Scanned) :
    skipSpace (item :: text) = item :: text := by
  rw [skipSpace, List.dropWhile_cons, h]
  rfl

/-- What closes an array or an object may stand on a line of its own. -/
theorem skipSpace_closing (style : Style) {c : Char} (h : isSpace (some c) = false) (rest : Scanned) :
    skipSpace ((style.lineBreak ++ [c]).map some ++ rest) = some c :: rest := by
  rw [List.map_append, List.append_assoc, skipSpace_blank (isSpace_lineBreak style)]
  exact skipSpace_cons h rest

theorem stops_closing (style : Style) {c : Char} (h : goesOn (some c) = false) (rest : Scanned) :
    Stops ((style.lineBreak ++ [c]).map some ++ rest) := by
  cases style with
  | compact => exact stops_cons h rest
  | lines depth => exact stops_cons rfl _

/-! ## What is written -/

section Written

variable (style : Style)

theorem write_integer (value : Int) : write style (integer value) = writeInteger value := rfl

theorem write_string (text : String) : write style (string text) = quote text.toList := rfl

theorem write_array_cons (item : Json) (items : List Json) :
    write style (array (item :: items)) =
      '[' :: style.inside.lineBreak ++ write style.inside item ++
        (writeItems style.inside items ++ style.lineBreak ++ [']']) := rfl

theorem write_object_cons (key : String) (value : Json) (members : List (String × Json)) :
    write style (object ((key, value) :: members)) =
      '\x7b' :: style.inside.lineBreak ++ quote key.toList ++ style.inside.colon ++
        write style.inside value ++
        (writeMembers style.inside members ++ style.lineBreak ++ ['\x7d']) := rfl

theorem writeItems_cons (item : Json) (items : List Json) :
    writeItems style (item :: items) =
      ',' :: style.lineBreak ++ write style item ++ writeItems style items := rfl

theorem writeMembers_cons (key : String) (value : Json) (members : List (String × Json)) :
    writeMembers style ((key, value) :: members) =
      ',' :: style.lineBreak ++ quote key.toList ++ style.colon ++ write style value ++
        writeMembers style members := rfl

theorem length_write_pos (j : Json) : 0 < (write style j).length := by
  cases j with
  | null => exact Nat.succ_pos _
  | bool value => cases value <;> exact Nat.succ_pos _
  | integer value =>
    cases value with
    | ofNat n => exact Nat.length_toDigits_pos
    | negSucc n => exact Nat.succ_pos _
  | real => exact Nat.succ_pos _
  | string text => exact Nat.succ_pos _
  | garbled => exact Nat.succ_pos _
  | array items => cases items <;> exact Nat.succ_pos _
  | object members => cases members <;> exact Nat.succ_pos _

end Written

/-! ## Values -/

/-- In front of anything that no number goes on with, the value is read as it is written. -/
def ReadsBack (j : Json) : Prop :=
  ∀ (style : Style) (fuel : Nat) (rest : Scanned), Stops rest → 2 * (write style j).length ≤ fuel →
    readValue fuel ((write style j).map some ++ rest) = some (j, rest)

/-- To read back a value there is always one call to begin with. -/
theorem ReadsBack.of_succ {j : Json}
    (h : ∀ (style : Style) (fuel : Nat) (rest : Scanned), Stops rest →
      2 * (write style j).length ≤ fuel + 1 →
      readValue (fuel + 1) ((write style j).map some ++ rest) = some (j, rest)) : ReadsBack j := by
  intro style fuel rest hstops hfuel
  have hpos := length_write_pos style j
  obtain ⟨fuel, rfl⟩ := Nat.exists_eq_add_one.mpr (show 0 < fuel by omega)
  exact h style fuel rest hstops hfuel

/-- A digit is none of the characters that other values start with. -/
theorem readValue_digit (fuel : Nat) {c : Char} (h : c.isDigit = true) (text : Scanned) :
    readValue (fuel + 1) (some c :: text) = readNumber false (some c :: text) := by
  obtain ⟨hlow, hhigh⟩ := Char.isDigit_iff_toNat.mp h
  rw [← Char.ofNat_toNat c]
  generalize c.toNat = n at hlow hhigh
  change 48 ≤ n at hlow
  change n ≤ 57 at hhigh
  interval_cases n <;> rfl

theorem readsBack_integer (value : Int) : ReadsBack (integer value) := by
  refine .of_succ fun style fuel rest hstops _ => ?_
  rw [write_integer]
  cases value with
  | ofNat n =>
    have hread := readNumber_toDigits false (n := n) hstops
    obtain ⟨d, digits, hdigits⟩ :=
      List.exists_cons_of_ne_nil (Nat.toDigits_ne_nil (n := n) (b := 10))
    have hdigit : d.isDigit = true := by
      refine Nat.isDigit_of_mem_toDigits (b := 10) (n := n) (by decide) (by decide) ?_
      rw [hdigits]
      exact List.mem_cons_self
    rw [writeInteger]
    rw [hdigits, List.map_cons, List.cons_append] at hread ⊢
    rw [readValue_digit fuel hdigit, hread]
    rfl
  | negSucc n =>
    have hread := readNumber_toDigits true (n := n + 1) hstops
    rw [writeInteger, List.map_cons, List.cons_append, readValue, skipSpace_cons rfl]
    exact hread

theorem map_quote (text : List Char) (rest : Scanned) :
    (quote text).map some ++ rest =
      some '"' :: ((text.flatMap escape).map some ++ some '"' :: rest) := by
  rw [quote, List.cons_append, List.map_cons, List.cons_append, List.map_append, List.append_assoc]
  rfl

theorem readsBack_string (text : String) : ReadsBack (string text) := by
  refine .of_succ fun style fuel rest _ _ => ?_
  rw [write_string, map_quote, readValue, skipSpace_cons rfl]
  simp only [readString_text, String.ofList_toList, Option.bind_eq_bind, Option.bind_some,
    Option.elim_some]

/-! ## Items -/

/-- What follows an item: a comma and the other items, and what closes the array. -/
theorem stops_writeItems (style outer : Style) (items : List Json) (rest : Scanned) :
    Stops ((writeItems style items ++ outer.lineBreak ++ [']']).map some ++ rest) := by
  cases items with
  | nil => exact stops_closing outer rfl rest
  | cons item items => exact stops_cons rfl _

theorem skipSpace_writeItems (style outer : Style) (next : Json) (items : List Json)
    (rest : Scanned) :
    skipSpace ((writeItems style (next :: items) ++ outer.lineBreak ++ [']']).map some ++ rest) =
      some ',' :: (style.lineBreak.map some ++ ((write style next).map some ++
        ((writeItems style items ++ outer.lineBreak ++ [']']).map some ++ rest))) := by
  simp only [writeItems_cons, List.cons_append, List.map_cons, List.map_append, List.append_assoc]
  exact skipSpace_cons rfl _

section Item

variable {item : Json} (h : ReadsBack item) (style : Style) {fuel : Nat}
  (hfuel : 2 * (write style item).length ≤ fuel) (before : List Json) {follow rest : Scanned}
  (hstops : Stops follow)
include h hfuel hstops

theorem readItems_next (hfollow : skipSpace follow = some ',' :: rest) :
    readItems (fuel + 1) before ((write style item).map some ++ follow) =
      readItems fuel (item :: before) rest := by
  rw [readItems, h style fuel follow hstops hfuel]
  simp only [Option.bind_eq_bind, Option.bind_some, hfollow]

theorem readItems_last (hfollow : skipSpace follow = some ']' :: rest) :
    readItems (fuel + 1) before ((write style item).map some ++ follow) =
      some ((item :: before).reverse, rest) := by
  rw [readItems, h style fuel follow hstops hfuel]
  simp only [Option.bind_eq_bind, Option.bind_some, hfollow]

end Item

/-- The items of an array are read back up to the bracket that closes it, one call for each. -/
theorem readItems_write (style outer : Style) (rest : Scanned) {item : Json} {items : List Json}
    (h : ∀ i ∈ item :: items, ReadsBack i) (before : List Json) (fuel : Nat)
    (hfuel : 2 * (write style item ++
      (writeItems style items ++ outer.lineBreak ++ [']'])).length ≤ fuel) :
    readItems fuel before ((write style item).map some ++
        ((writeItems style items ++ outer.lineBreak ++ [']']).map some ++ rest)) =
      some (before.reverse ++ item :: items, rest) := by
  rw [List.length_append, List.length_append, List.length_append, List.length_singleton] at hfuel
  induction items generalizing item before fuel with
  | nil =>
    obtain ⟨fuel, rfl⟩ := Nat.exists_eq_add_one.mpr (show 0 < fuel by omega)
    rw [readItems_last (h item List.mem_cons_self) style (by omega) before
      (stops_writeItems style outer [] rest) (skipSpace_closing outer rfl rest), List.reverse_cons]
  | cons next items ih =>
    obtain ⟨fuel, rfl⟩ := Nat.exists_eq_add_one.mpr (show 0 < fuel by omega)
    have hfollow := skipSpace_writeItems style outer next items rest
    rw [readItems_next (h item List.mem_cons_self) style (by omega) before
      (stops_writeItems style outer _ rest) hfollow, readItems_blank (isSpace_lineBreak style)]
    rw [writeItems_cons, List.length_append, List.length_append, List.length_cons] at hfuel
    rw [ih (fun i hi => h i (List.mem_cons_of_mem _ hi)) (item :: before) fuel (by omega),
      List.reverse_cons, List.append_assoc, List.singleton_append]

/-! ## Members -/

theorem stops_writeMembers (style outer : Style) (members : List (String × Json)) (rest : Scanned) :
    Stops ((writeMembers style members ++ outer.lineBreak ++ ['\x7d']).map some ++ rest) := by
  cases members with
  | nil => exact stops_closing outer rfl rest
  | cons member members => exact stops_cons rfl _

theorem skipSpace_writeMembers (style outer : Style) (key : String) (value : Json)
    (members : List (String × Json)) (rest : Scanned) :
    skipSpace ((writeMembers style ((key, value) :: members) ++ outer.lineBreak ++
        ['\x7d']).map some ++ rest) =
      some ',' :: (style.lineBreak.map some ++ ((quote key.toList).map some ++
        (style.colon.map some ++ ((write style value).map some ++
          ((writeMembers style members ++ outer.lineBreak ++ ['\x7d']).map some ++ rest))))) := by
  simp only [writeMembers_cons, List.cons_append, List.map_cons, List.map_append, List.append_assoc]
  exact skipSpace_cons rfl _

/-- A key is read with its colon, and what stands between that and the value is left to the value. -/
theorem readKey_quote (style : Style) (key : String) (text : Scanned) :
    ∃ blank : Scanned, (∀ item ∈ blank, isSpace item = true) ∧
      readKey ((quote key.toList).map some ++ (style.colon.map some ++ text)) =
        some (some key, blank ++ text) := by
  have hread : ∀ rest, readKey ((quote key.toList).map some ++ some ':' :: rest) =
      some (some key, rest) := by
    intro rest
    rw [map_quote, readKey, skipSpace_cons rfl]
    simp only [readString_text, String.ofList_toList, Option.bind_eq_bind, Option.bind_some,
      skipSpace_cons (show isSpace (some ':') = false from rfl)]
  cases style with
  | compact => exact ⟨[], nofun, hread text⟩
  | lines depth =>
    refine ⟨[some ' '], fun item hitem => ?_, hread _⟩
    rw [List.mem_singleton.mp hitem]
    rfl

section Member

variable {value : Json} (h : ReadsBack value) (key : String) (style : Style) {fuel : Nat}
  (hfuel : 2 * (write style value).length ≤ fuel) (before : List (Option String × Json))
  {follow rest : Scanned} (hstops : Stops follow)
include h hfuel hstops

theorem readMembers_next (hfollow : skipSpace follow = some ',' :: rest) :
    readMembers (fuel + 1) before ((quote key.toList).map some ++
        (style.colon.map some ++ ((write style value).map some ++ follow))) =
      readMembers fuel ((some key, value) :: before) rest := by
  obtain ⟨blank, hblank, hkey⟩ := readKey_quote style key ((write style value).map some ++ follow)
  rw [readMembers, hkey]
  simp only [Option.bind_eq_bind, Option.bind_some, readValue_blank hblank,
    h style fuel follow hstops hfuel, hfollow]

theorem readMembers_last (hfollow : skipSpace follow = some '\x7d' :: rest) :
    readMembers (fuel + 1) before ((quote key.toList).map some ++
        (style.colon.map some ++ ((write style value).map some ++ follow))) =
      some (((some key, value) :: before).reverse, rest) := by
  obtain ⟨blank, hblank, hkey⟩ := readKey_quote style key ((write style value).map some ++ follow)
  rw [readMembers, hkey]
  simp only [Option.bind_eq_bind, Option.bind_some, readValue_blank hblank,
    h style fuel follow hstops hfuel, hfollow]

end Member

/-- A member as it is read, when its key is a text. -/
def withKey (member : String × Json) : Option String × Json :=
  (some member.1, member.2)

/-- The members of an object are read back up to the brace that closes it, one call for each. -/
theorem readMembers_write (style outer : Style) (rest : Scanned) {key : String} {value : Json}
    {members : List (String × Json)} (h : ∀ m ∈ (key, value) :: members, ReadsBack m.2)
    (before : List (Option String × Json)) (fuel : Nat)
    (hfuel : 2 * (write style value ++
      (writeMembers style members ++ outer.lineBreak ++ ['\x7d'])).length ≤ fuel) :
    readMembers fuel before ((quote key.toList).map some ++ (style.colon.map some ++
        ((write style value).map some ++
          ((writeMembers style members ++ outer.lineBreak ++ ['\x7d']).map some ++ rest)))) =
      some (before.reverse ++ ((key, value) :: members).map withKey, rest) := by
  rw [List.length_append, List.length_append, List.length_append, List.length_singleton] at hfuel
  induction members generalizing key value before fuel with
  | nil =>
    have hvalue : ReadsBack value := h _ List.mem_cons_self
    obtain ⟨fuel, rfl⟩ := Nat.exists_eq_add_one.mpr (show 0 < fuel by omega)
    rw [readMembers_last hvalue key style (by omega) before
      (stops_writeMembers style outer [] rest) (skipSpace_closing outer rfl rest), List.reverse_cons]
    rfl
  | cons next members ih =>
    have hvalue : ReadsBack value := h _ List.mem_cons_self
    obtain ⟨nextKey, nextValue⟩ := next
    obtain ⟨fuel, rfl⟩ := Nat.exists_eq_add_one.mpr (show 0 < fuel by omega)
    have hfollow := skipSpace_writeMembers style outer nextKey nextValue members rest
    rw [readMembers_next hvalue key style (by omega) before
      (stops_writeMembers style outer _ rest) hfollow, readMembers_blank (isSpace_lineBreak style)]
    rw [writeMembers_cons, List.length_append, List.length_append, List.length_append,
      List.length_append, List.length_cons] at hfuel
    rw [ih (fun m hm => h m (List.mem_cons_of_mem _ hm)) ((some key, value) :: before) fuel
      (by omega), List.reverse_cons, List.append_assoc, List.singleton_append]
    rfl

theorem ofMembers_map (members : List (String × Json)) :
    ofMembers (members.map withKey) = object members := by
  have hall : (members.map withKey).mapM (fun member => member.1.map (·, member.2)) =
      some members := by
    induction members with
    | nil => rfl
    | cons member members ih =>
      rw [List.map_cons, List.mapM_cons, ih]
      rfl
  rw [ofMembers, hall]

/-! ## Whole values -/

/-- Items that are read are those of an array: no item starts with the bracket that closes one. -/
theorem readValue_array {fuel : Nat} {text rest : Scanned} {items : List Json}
    (h : readItems fuel [] text = some (items, rest)) :
    readValue (fuel + 1) (some '[' :: text) = some (array items, rest) := by
  have hopen : ∀ more, skipSpace text ≠ some ']' :: more := by
    intro more heq
    have hnone : ∀ calls, readValue calls text = none := by
      intro calls
      cases calls with
      | zero => rfl
      | succ calls =>
        rw [readValue, heq]
        rfl
    cases fuel with
    | zero => cases h
    | succ fuel =>
      rw [readItems, hnone fuel] at h
      cases h
  rw [readValue, skipSpace_cons rfl]
  -- That the array is not the empty one is taken from the context (`hopen`).
  simp only [h, Option.bind_eq_bind, Option.bind_some]

theorem readValue_object {fuel : Nat} {text rest : Scanned}
    {members : List (Option String × Json)} (h : readMembers fuel [] text = some (members, rest)) :
    readValue (fuel + 1) (some '\x7b' :: text) = some (ofMembers members, rest) := by
  have hopen : ∀ more, skipSpace text ≠ some '\x7d' :: more := by
    intro more heq
    cases fuel with
    | zero => cases h
    | succ fuel =>
      rw [readMembers, readKey, heq] at h
      cases h
  rw [readValue, skipSpace_cons rfl]
  simp only [h, Option.bind_eq_bind, Option.bind_some]

theorem readsBack_array {items : List Json} (h : ∀ item ∈ items, ReadsBack item) :
    ReadsBack (array items) := by
  refine .of_succ fun style fuel rest hstops hfuel => ?_
  cases items with
  | nil => rfl
  | cons item items =>
    rw [write_array_cons] at hfuel ⊢
    simp only [List.length_append, List.length_cons] at hfuel
    have hread := readItems_write style.inside style rest h [] fuel (by
      simp only [List.length_append, List.length_cons]
      omega)
    rw [← readItems_blank (isSpace_lineBreak style.inside)] at hread
    simp only [List.cons_append, List.map_cons, List.map_append, List.append_assoc] at hread ⊢
    exact readValue_array hread

theorem readsBack_object {members : List (String × Json)}
    (h : ∀ member ∈ members, ReadsBack member.2) : ReadsBack (object members) := by
  refine .of_succ fun style fuel rest hstops hfuel => ?_
  cases members with
  | nil => rfl
  | cons member members =>
    obtain ⟨key, value⟩ := member
    rw [write_object_cons] at hfuel ⊢
    simp only [List.length_append, List.length_cons] at hfuel
    have hread := readMembers_write style.inside style rest h [] fuel (by
      simp only [List.length_append, List.length_cons]
      omega)
    rw [← readMembers_blank (isSpace_lineBreak style.inside)] at hread
    simp only [List.cons_append, List.map_cons, List.map_append, List.append_assoc] at hread ⊢
    rw [readValue_object hread, List.reverse_nil, List.nil_append, ← List.map_cons, ofMembers_map]

theorem Kept.readsBack {j : Json} (h : Kept j) : ReadsBack j := by
  induction h with
  | null => exact .of_succ fun _ _ _ _ _ => rfl
  | bool value => exact .of_succ fun _ _ _ _ _ => by cases value <;> rfl
  | integer value => exact readsBack_integer value
  | string text => exact readsBack_string text
  | array _ ih => exact readsBack_array ih
  | object _ ih => exact readsBack_object ih

/-- **What is written is read back**, in either style. -/
theorem ofScanned?_write {j : Json} (h : Kept j) (style : Style) :
    ofScanned? ((write style j).map some) = some j := by
  have hread := h.readsBack style (2 * ((write style j).map some).length + 2) [] stops_nil (by
    rw [List.length_map]
    omega)
  rw [List.append_nil] at hread
  rw [ofScanned?, hread]
  rfl

end PocketCalculator.Json
