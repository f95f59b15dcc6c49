/-!
# Positions in the log

A position is a place in the log: a sequence number that fits a signed 64-bit
word, or the null position, which stands for no place yet and comes before every
other. The sequence packs two halves of 32 bits: the number of a log file above
the offset within that file, so positions cross log files in order.
-/

namespace Changefeed

/-- The least number that no sequence reaches. -/
def sequenceLimit : Nat := 1 <<< 63

/-- The least number that no half of a sequence reaches. -/
def halfLimit : Nat := 1 <<< 32

/-- The sequence number of a known place in the log. -/
abbrev Sequence := Fin sequenceLimit

/-- A place in the log, or the null position that comes before them all. -/
inductive Position where
  | null
  | known (sequence : Sequence)
deriving DecidableEq, Repr

namespace Position

instance : Inhabited Position := ⟨null⟩

/-- Whether a position is a place in the log. -/
def isKnown : Position → Bool
  | null => false
  | known _ => true

/-- The sequence as a number; -1 for the null position. -/
def sequence : Position → Int
  | null => -1
  | known n => n.val

/-- The sequence of a known position. -/
def known? : Position → Option Sequence
  | null => none
  | known n => some n

/-- The position of a sequence that may be missing. -/
def ofKnown : Option Sequence → Position
  | none => null
  | some n => known n

/-! ## Order -/

/-- How two positions compare: null first, then by sequence. -/
protected def compare : Position → Position → Ordering
  | null, null => .eq
  | null, known _ => .lt
  | known _, null => .gt
  | known m, known n => Ord.compare m.val n.val

instance : Ord Position := ⟨Position.compare⟩
instance : LT Position := ltOfOrd
instance : LE Position := leOfOrd

/-- Positions compare as their sequences do. -/
theorem compare_eq_compare_sequence :
    ∀ p q : Position, compare p q = Ord.compare p.sequence q.sequence
  | null, null => rfl
  | null, known n => by
    show Ordering.lt = Ord.compare (-1 : Int) (n.val : Int)
    exact (Int.compare_eq_lt.2 (by omega)).symm
  | known m, null => by
    show Ordering.gt = Ord.compare (m.val : Int) (-1 : Int)
    exact (Int.compare_eq_gt.2 (by omega)).symm
  | known m, known n => by
    show Ord.compare m.val n.val = Ord.compare (m.val : Int) (n.val : Int)
    simp only [Int.compare_eq_ite_lt, Nat.compare_eq_ite_lt, Int.ofNat_lt]

theorem le_iff {p q : Position} : p ≤ q ↔ p.sequence ≤ q.sequence := by
  show (compare p q).isLE = true ↔ _
  rw [compare_eq_compare_sequence, Int.isLE_compare]

theorem lt_iff {p q : Position} : p < q ↔ p.sequence < q.sequence := by
  show compare p q = .lt ↔ _
  rw [compare_eq_compare_sequence, Int.compare_eq_lt]

theorem sequence_inj {p q : Position} : p.sequence = q.sequence ↔ p = q := by
  refine ⟨fun h => ?_, congrArg sequence⟩
  cases p with
  | null =>
    cases q with
    | null => rfl
    | known n => exact absurd h (by show (-1 : Int) ≠ (n.val : Int); omega)
  | known m =>
    cases q with
    | null => exact absurd h (by show (m.val : Int) ≠ -1; omega)
    | known n => exact congrArg known (Fin.ext (Int.ofNat.inj h))

/-! ## Hash -/

/-- The modulus of hashes, a prime. -/
def hashModulus : Nat := 1 <<< 61 - 1

/-- What a position hashes by: the remainder of its sequence. The null position hashes like no
other. Positions that are a multiple of the modulus apart hash alike. -/
def hashKey : Position → Option Nat
  | null => none
  | known n => some (n.val % hashModulus)

/-! ## Halves -/

/-- The number of the log file: the upper half of the sequence. -/
def file (p : Position) : Int := p.sequence / halfLimit

/-- The offset within the log file: the lower half of the sequence. -/
def offset (p : Position) : Int := p.sequence % halfLimit

/-! ## Text -/

/-- The text of a position: its sequence in decimal, or `NULL`. -/
def text : Position → String
  | null => "NULL"
  | known n => toString n.val

/-- The official long form, file and hexadecimal offset: `LSN(7,8a209c)`. -/
def longText (p : Position) : String :=
  s!"LSN({p.file},{String.ofList (Nat.toDigits 16 p.offset.toNat)})"

instance : ToString Position := ⟨text⟩

end Position

end Changefeed
