import Changefeed.Proofs.Order
import Changefeed.Proofs.Position.Halves

/-!
# Comparing positions

Positions are compared by whether they are known and then by their sequences, while they
are equal if the same is stored in them. The two go together because no number below zero
is ever stored: making a position of one gives the null position, whatever the number
(`sequence_of_ofInt`). So comparing is a linear order with the null position first, in
which only equal positions stand in one place (`compare_linear`).

It is also the order of the halves, file before offset (`compare_eq_then_halves`): what
was written to a later log file is further on, however far into its file it is.
-/

namespace Changefeed

namespace Position

variable {p q : Position} {m n : Int}

/-! ## Comparing and making -/

/-- What is stored is the number itself, and all numbers below zero are folded into one. -/
theorem sequence_of_ofInt (h : ofInt n = .ok p) : p.sequence = max n (-1) := by
  cases ofInt_eq_ok_iff.1 h with
  | known k =>
    show (k.val : Int) = max (k.val : Int) (-1)
    omega
  | null _ hneg =>
    show (-1 : Int) = max n (-1)
    omega

/-- Positions made of numbers compare as the numbers do, those below zero counted as one. -/
theorem compare_of_ofInt (hp : ofInt m = .ok p) (hq : ofInt n = .ok q) :
    compare p q = compare (max m (-1)) (max n (-1)) := by
  rw [compare_eq_compare_sequence, sequence_of_ofInt hp, sequence_of_ofInt hq]

/-! ## Comparing and the halves -/

/-- **Positions compare by their files, and within a file by their offsets.** The halves of the null
position come before those of all others. -/
theorem compare_eq_then_halves (p q : Position) :
    compare p q = (compare p.file q.file).then (compare p.offset q.offset) := by
  have hp := halves_sequence p
  have hq := halves_sequence q
  have hpo := offset_bounds p
  have hqo := offset_bounds q
  rw [halfLimit_eq] at hp hq
  rw [compare_eq_compare_sequence]
  rcases Int.lt_trichotomy p.file q.file with hfile | hfile | hfile
  · rw [Int.compare_eq_lt.2 hfile, Int.compare_eq_lt.2 (by omega)]
    rfl
  · -- in one file the offset decides
    have hlt : p.sequence < q.sequence ↔ p.offset < q.offset := by omega
    have hgt : q.sequence < p.sequence ↔ q.offset < p.offset := by omega
    rw [Int.compare_eq_eq.2 hfile, Int.compare_eq_ite_lt, Int.compare_eq_ite_lt]
    simp only [hlt, hgt]
    rfl
  · rw [Int.compare_eq_gt.2 hfile, Int.compare_eq_gt.2 (by omega)]
    rfl

/-! ## The order -/

/-- The null position comes before all that are known, and before no other. -/
theorem compare_null_iff (q : Position) : compare null q = .lt ↔ q.isKnown = true := by
  rw [compare_lt_iff_lt]
  refine ⟨isKnown_of_lt, ?_⟩
  intro hq
  cases q with
  | null => cases hq
  | known k => exact null_lt_known k

theorem hashKey_of_compare (h : compare p q = .eq) : p.hashKey = q.hashKey :=
  congrArg hashKey (compare_eq_iff_eq.1 h)

/--
**Comparing positions is a linear order.** Turning a comparison round turns its result round; no
position stands both before and behind another; and of three in line the first does not come after
the last. The null position is strictly before each known one. Two positions are in one place
exactly if they are equal, and then they hash alike. The four relations are the signs of the
comparison. It goes by file first and by offset within a file; and positions made of numbers compare
as the numbers do, those below zero counted as one.
-/
theorem compare_linear (p q r : Position) :
    (compare q p = (compare p q).swap
      ∧ ((compare p q).isLE = true ∧ (compare q p).isLE = true ↔ p = q)
      ∧ ((compare p q).isLE = true → (compare q r).isLE = true → (compare p r).isLE = true)
      ∧ ((compare p q).isLE = true ∨ (compare q p).isLE = true))
    ∧ (compare null q = .lt ↔ q.isKnown = true)
    ∧ ((compare p q = .eq ↔ p = q) ∧ (compare p q = .eq → p.hashKey = q.hashKey))
    ∧ ((p < q ↔ compare p q = .lt) ∧ (p ≤ q ↔ compare p q ≠ .gt)
      ∧ (p > q ↔ compare p q = .gt) ∧ (p ≥ q ↔ compare p q ≠ .lt))
    ∧ compare p q = (compare p.file q.file).then (compare p.offset q.offset)
    ∧ (∀ m n, ofInt m = .ok p → ofInt n = .ok q →
      compare p q = compare (max m (-1)) (max n (-1))) := by
  refine ⟨⟨Std.OrientedOrd.eq_swap, ?_, Std.TransCmp.isLE_trans, ?_⟩, compare_null_iff q,
    ⟨compare_eq_iff_eq, hashKey_of_compare⟩,
    ⟨compare_lt_iff_lt.symm, compare_le_iff_le.symm, compare_gt_iff_gt.symm,
      compare_ge_iff_ge.symm⟩,
    compare_eq_then_halves p q, ?_⟩
  · rw [Std.isLE_compare, Std.isLE_compare]
    exact le_antisymm_iff.symm
  · rw [Std.isLE_compare, Std.isLE_compare]
    exact le_total p q
  · intro m n hp hq
    exact compare_of_ofInt hp hq

/-- Two numbers below zero make one position. The last place of a log file is behind it, and before
the first place of the next. -/
theorem compare_linear_across_files :
    (∃ p q, ofInt (-42) = .ok p ∧ ofInt (-1) = .ok q ∧ compare p q = .eq
      ∧ p.hashKey = q.hashKey)
    ∧ (∃ p q r, ofInt (-42) = .ok p ∧ ofInt (2 ^ 32 - 1) = .ok q ∧ ofInt (2 ^ 32) = .ok r
      ∧ compare p q = .lt ∧ compare q r = .lt ∧ (compare p r).isLE = true) := by
  constructor
  · obtain ⟨_, _, ⟨_, hhash⟩, _, _, hmade⟩ := compare_linear null null null
    have hone : compare null null = .eq :=
      (hmade (-42) (-1) rfl rfl).trans (by decide)
    exact ⟨null, null, rfl, rfl, hone, hhash hone⟩
  · obtain ⟨⟨_, _, htrans, _⟩, hnull, _⟩ :=
      compare_linear null (known 4294967295) (known 4294967296)
    obtain ⟨_, _, _, _, _, hmade⟩ :=
      compare_linear (known 4294967295) (known 4294967296) null
    have hfirst : compare null (known 4294967295) = .lt := hnull.2 rfl
    have hnext : compare (known 4294967295) (known 4294967296) = .lt :=
      (hmade (2 ^ 32 - 1) (2 ^ 32) rfl rfl).trans (by decide)
    refine ⟨null, known 4294967295, known 4294967296, rfl, rfl, rfl, hfirst, hnext, ?_⟩
    exact htrans (by rw [hfirst]; rfl) (by rw [hnext]; rfl)

end Position

end Changefeed
