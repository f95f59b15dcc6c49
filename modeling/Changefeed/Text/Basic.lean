/-!
# Texts

A text is a sequence of UTF-16 units. A character beyond U+FFFF is two of them, a
high surrogate and a low one behind it, and every other character is one. A
surrogate without its partner is no character, but a document can hold one, by
its escape. It stays in the text, and texts that differ in nothing else are
different texts. So a string of characters is always a text, and a text is a
string of characters unless a surrogate stands alone in it (`plain?`).

A high surrogate directly before a low one is always the character of the pair,
however the two came to stand there.
-/

namespace Changefeed

/-- A text: its UTF-16 units. -/
structure Text where
  units : List UInt16
deriving DecidableEq, Repr

namespace Text

instance : Append Text := ⟨fun s t => ⟨s.units ++ t.units⟩⟩

/-- Whether a text holds nothing. -/
def isEmpty (t : Text) : Bool := t.units.isEmpty

/-! ## Code points -/

/-- Whether a unit is the first half of a pair. -/
def isHigh (u : UInt16) : Bool := 0xD800 ≤ u && u < 0xDC00

/-- Whether a unit is the second half of a pair. -/
def isLow (u : UInt16) : Bool := 0xDC00 ≤ u && u < 0xE000

/-- The units of a code point. -/
def unitsOf (n : Nat) : List UInt16 :=
  if n < 0x10000 then [.ofNat n]
  else [.ofNat (0xD800 + (n - 0x10000) / 0x400), .ofNat (0xDC00 + (n - 0x10000) % 0x400)]

/-- The code points of units: that of each pair, and that of every other unit. -/
def pointsOf : List UInt16 → List Nat
  | [] => []
  | [u] => [u.toNat]
  | u :: v :: rest =>
    if isHigh u && isLow v then
      (0x10000 + (u.toNat - 0xD800) * 0x400 + (v.toNat - 0xDC00)) :: pointsOf rest
    else u.toNat :: pointsOf (v :: rest)

/-- The text of code points. -/
def ofPoints (ns : List Nat) : Text := ⟨ns.flatMap unitsOf⟩

/-- The code points of a text. -/
def points (t : Text) : List Nat := pointsOf t.units

/-- The texts of the single code points of a text. -/
def singles (t : Text) : List Text := t.points.map fun n => ⟨unitsOf n⟩

/-- Texts are ordered as their code points are, the first difference deciding. -/
instance : LE Text := ⟨fun s t => List.le s.points t.points⟩

instance : DecidableLE Text := fun s t => List.decidableLE s.points t.points

/-! ## Characters -/

/-- The character of a code point; a surrogate has none. -/
def charOf? (n : Nat) : Option Char := if n.isValidChar then some (Char.ofNat n) else none

/-- The text of a string of characters. -/
@[coe] def ofString (s : String) : Text := ofPoints (s.toList.map Char.toNat)

instance : Coe String Text := ⟨ofString⟩

/-- Texts one after the other, with a comma between. -/
def commaSeparated : List Text → Text
  | [] => ""
  | [t] => t
  | t :: rest => t ++ ", " ++ commaSeparated rest

/-- The characters of a text, unless a surrogate stands alone in it. -/
def plain? (t : Text) : Option String := (t.points.mapM charOf?).map String.ofList

end Text

end Changefeed
