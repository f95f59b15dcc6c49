import Mathlib.Algebra.GroupWithZero.Nat
import Mathlib.Order.Defs.LinearOrder
import Mathlib.Order.Lattice
import Mathlib.Order.MinMax
import Changefeed.Position.Basic

/-!
# The order of positions

Positions are in line by their sequences, the null position first. This is what
makes "the furthest position" of a stream a thing to talk of: the streams and
stores of this library keep a maximum, and reason with the laws of one.
-/

namespace Changefeed.Position

instance : LinearOrder Position where
  le_refl p := by rw [le_iff]
  le_trans p q r := by simp only [le_iff]; omega
  lt_iff_le_not_ge p q := by simp only [le_iff, lt_iff]; omega
  le_antisymm p q := by
    simp only [le_iff]
    intro h h'
    exact sequence_inj.1 (by omega)
  le_total p q := by simp only [le_iff]; omega
  toDecidableLE := inferInstance
  toDecidableLT := inferInstance
  toDecidableEq := inferInstance
  toOrd := inferInstance
  compare_eq_compareOfLessAndEq p q := by
    rw [compare_eq_compare_sequence, Int.compare_eq_ite_lt, compareOfLessAndEq]
    simp only [lt_iff, ← sequence_inj]
    split
    · rfl
    · split
      · rw [if_neg (by omega)]
      · rw [if_pos (by omega)]

instance : NeZero sequenceLimit := ⟨by unfold sequenceLimit; omega⟩

@[simp] theorem null_le (p : Position) : null ≤ p := by
  rw [le_iff]
  cases p with
  | null => rfl
  | known n => show (-1 : Int) ≤ (n.val : Int); omega

@[simp] theorem known_le_known {m n : Sequence} : known m ≤ known n ↔ m ≤ n := by
  rw [le_iff]
  show (m.val : Int) ≤ (n.val : Int) ↔ m.val ≤ n.val
  omega

@[simp] theorem known_lt_known {m n : Sequence} : known m < known n ↔ m < n := by
  rw [lt_iff]
  show (m.val : Int) < (n.val : Int) ↔ m.val < n.val
  omega

@[simp] theorem null_lt_known (n : Sequence) : null < known n := by
  rw [lt_iff]
  show (-1 : Int) < (n.val : Int)
  omega

@[simp] theorem not_known_le_null (n : Sequence) : ¬known n ≤ null := not_le.2 (null_lt_known n)

/-- What lies beyond some position is a place in the log. -/
theorem isKnown_of_lt {p q : Position} (h : p < q) : q.isKnown = true := by
  cases q with
  | null => exact absurd h (not_lt.2 (null_le p))
  | known n => rfl

end Changefeed.Position

namespace Changefeed

/-- The furthest of some positions lies within `x` exactly if each of them does. -/
theorem foldl_max_le {q x : Position} {ps : List Position} :
    ps.foldl max q ≤ x ↔ q ≤ x ∧ ∀ p ∈ ps, p ≤ x := by
  induction ps generalizing q with
  | nil => simp
  | cons p rest ih => rw [List.foldl_cons, ih, max_le_iff]; simp [and_assoc]

end Changefeed
