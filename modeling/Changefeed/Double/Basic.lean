/-!
# Doubles

Binary floating-point numbers of 64 bits, as their sign and their code: the
other 63 bits, read as a number. Codes ascend with the magnitude, so rounding,
carrying into the next exponent and overflow to infinity are plain arithmetic on
codes. A finite double is a whole number of units of 2^-1074, and everything
below is exact arithmetic with natural numbers.
-/

namespace Changefeed

/-- A double: its sign, and its other 63 bits as a number. -/
structure Double where
  /-- The sign bit. -/
  negative : Bool
  /-- Exponent and fraction: 11 bits above 52. -/
  code : Fin (1 <<< 63)
deriving DecidableEq

namespace Double

/-- The least code that is not finite: infinity. Above it are the codes that are no number. -/
def infinityCode : Nat := 2047 <<< 52

/-- The double with a code, which is infinity at most. -/
def ofCode (negative : Bool) (code : Nat) : Double :=
  ⟨negative, ⟨min code infinityCode, by have := Nat.min_le_right code infinityCode; unfold infinityCode at *; omega⟩⟩

/-- Infinity of either sign. -/
def infinity (negative : Bool) : Double := ofCode negative infinityCode

/-- The double that is no number. -/
def nan : Double := ⟨false, ⟨infinityCode + 1 <<< 51, by unfold infinityCode; omega⟩⟩

/-- Zero of either sign. -/
def zero (negative : Bool) : Double := ⟨negative, ⟨0, by omega⟩⟩

/-- The double of 64 bits. -/
def ofBits (bits : Nat) : Double :=
  ⟨bits / (1 <<< 63) % 2 = 1, ⟨bits % (1 <<< 63), Nat.mod_lt _ (by omega)⟩⟩

/-- The 64 bits of a double. -/
def bits (x : Double) : Nat := (if x.negative then 1 <<< 63 else 0) + x.code.val

/-- Whether a double is no number. -/
def isNaN (x : Double) : Bool := infinityCode < x.code.val

/-- Whether a double is infinity of either sign. -/
def isInfinite (x : Double) : Bool := x.code.val = infinityCode

/-- Whether a double is zero of either sign. -/
def isZero (x : Double) : Bool := x.code.val = 0

/-- The magnitude of a finite double in units of 2^-1074. -/
def units (x : Double) : Nat :=
  let exponent := x.code.val / (1 <<< 52)
  let fraction := x.code.val % (1 <<< 52)
  if exponent = 0 then fraction else (1 <<< 52 + fraction) <<< (exponent - 1)

/-- How many units make one. -/
def unitsPerOne : Nat := 1 <<< 1074

/-- The whole number nearest to a quotient; a tie goes to the even neighbour. -/
def roundDiv (num den : Nat) : Nat :=
  let q := num / den
  let r := num % den
  if 2 * r < den then q
  else if den < 2 * r then q + 1
  else if q % 2 = 0 then q else q + 1

/-- The double nearest to `num / den`; a tie goes to the even neighbour, and what is too large
becomes infinity. -/
def ofRatio (negative : Bool) (num den : Nat) : Double :=
  let whole := num * unitsPerOne / den
  let shift := if whole < 1 <<< 53 then 0 else Nat.log2 whole - 52
  ofCode negative (shift <<< 52 + roundDiv (num * unitsPerOne) (den <<< shift))

/-- The double nearest to a whole number. -/
def ofInt (n : Int) : Double := ofRatio (n < 0) n.natAbs 1

/-- The double nearest to `m * 10 ^ e`. Far outside the range of doubles the answer is known
without the arithmetic. -/
def ofDecimal (negative : Bool) (m : Nat) (e : Int) : Double :=
  let magnitude : Int := (Nat.toDigits 10 m).length + e
  if m = 0 ∨ magnitude < -400 then zero negative
  else if 400 < magnitude then infinity negative
  else if 0 ≤ e then ofRatio negative (m * Nat.pow 10 e.toNat) 1
  else ofRatio negative m (Nat.pow 10 (-e).toNat)

/-- Whether a double is a whole number. -/
def isWhole (x : Double) : Bool :=
  decide (x.code.val < infinityCode) && x.units % unitsPerOne = 0

/-- A finite double as a whole number, cut off after the point. -/
def truncate (x : Double) : Int :=
  let n := x.units / unitsPerOne
  if x.negative then -(n : Int) else n

example : ofInt (-1) = ofBits 0xBFF0000000000000 := by decide +kernel
example : (ofInt (1 <<< 53 + 1)).truncate = 1 <<< 53 := by decide +kernel
example : ofDecimal false 15 (-1) = ofBits 0x3FF8000000000000 := by decide +kernel

end Double

end Changefeed
