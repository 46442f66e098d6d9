/-!
# UTF-8

Octets as characters, one octet at a time. Where no character is encoded `none` stands in its place,
and the octet that shows it is looked at afresh, so a line end stays a line end whatever stands
before it. `decode?` gives the text of octets that encode one throughout.
-/

namespace PocketCalculator.Text

/-- A text of which parts may be no characters. -/
abbrev Scanned :=
  List (Option Char)

/-- A scanned text all of which are characters. -/
def Scanned.toText? (text : Scanned) : Option (List Char) :=
  text.mapM id

namespace Utf8

/-- A character that is begun: the bits so far, how many octets it still needs, and the least and
the greatest that the next of them may be. -/
structure Pending where
  bits : Nat
  owed : Nat
  least : UInt8
  greatest : UInt8
  deriving DecidableEq, Repr

/-- What octets decode to: the text so far, the newest character first, and the character that is
begun. -/
structure Progress where
  text : Scanned
  pending : Option Pending
  deriving DecidableEq

/-- The characters that a first octet above ASCII begins. The ranges of the second octet leave out
overlong forms, surrogates and what is past the last code point. -/
def begun? (b : UInt8) : Option Pending :=
  -- Below are the octets that go on with a character, and the two that could only be overlong.
  if b < 0xC2 then none
  else if b < 0xE0 then some ⟨b.toNat - 0xC0, 1, 0x80, 0xBF⟩
  else if b == 0xE0 then some ⟨0, 2, 0xA0, 0xBF⟩
  else if b == 0xED then some ⟨0xD, 2, 0x80, 0x9F⟩
  else if b < 0xF0 then some ⟨b.toNat - 0xE0, 2, 0x80, 0xBF⟩
  else if b == 0xF0 then some ⟨0, 3, 0x90, 0xBF⟩
  else if b < 0xF4 then some ⟨b.toNat - 0xF0, 3, 0x80, 0xBF⟩
  else if b == 0xF4 then some ⟨4, 3, 0x80, 0x8F⟩
  else none

/-- Takes an octet after a text in which no character is begun. -/
def first (text : Scanned) (b : UInt8) : Progress :=
  if b < 0x80 then ⟨some (Char.ofNat b.toNat) :: text, none⟩
  else
    match begun? b with
    | some pending => ⟨text, some pending⟩
    | none => ⟨none :: text, none⟩

def push (p : Progress) (b : UInt8) : Progress :=
  match p.pending with
  | none => first p.text b
  | some pending =>
    if pending.least ≤ b && b ≤ pending.greatest then
      let bits := pending.bits * 0x40 + b.toNat % 0x40
      if pending.owed = 1 then ⟨some (Char.ofNat bits) :: p.text, none⟩
      else ⟨p.text, some ⟨bits, pending.owed - 1, 0x80, 0xBF⟩⟩
    else first (none :: p.text) b

/-- The text, at the end of the octets. -/
def finish (p : Progress) : Scanned :=
  match p.pending with
  | none => p.text.reverse
  | some _ => (none :: p.text).reverse

/-- The characters that octets encode, and what is none. -/
def decode (octets : List UInt8) : Scanned :=
  finish (octets.foldl push ⟨[], none⟩)

/-- The text that octets encode, if they encode one. -/
def decode? (octets : List UInt8) : Option (List Char) :=
  (decode octets).toText?

end Utf8

end PocketCalculator.Text
