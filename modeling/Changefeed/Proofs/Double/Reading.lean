import Mathlib.Algebra.Group.Nat.Defs
import Changefeed.Double.Shortest

/-!
# Doubles read back

The double that is nearest to a numeral depends on the number that the numeral
stands for, not on how many of its zeros are digits and how many are in the
exponent (`ofDecimal_shift`). The digits chosen for a double are among those that
were tried and read back, or they are its exact value, which is read back because
there is nothing to round (`ofDecimal_exact`). So they always read back as the
double (`ofDecimal_shortest`).
-/

namespace Changefeed.Double

/-! ## Rounding quotients -/

theorem roundDiv_mul_right {num den c : Nat} (hc : 0 < c) :
    roundDiv (num * c) (den * c) = roundDiv num den := by
  have hlt : ∀ a b : Nat, a * c < b * c ↔ a < b := fun a b => Nat.mul_lt_mul_right hc
  unfold roundDiv
  rw [Nat.mul_div_mul_right num den hc, Nat.mul_mod_mul_right]
  simp only [← Nat.mul_assoc, hlt]

/-- A whole quotient is not rounded. -/
theorem roundDiv_mul_self {q den : Nat} (hd : 0 < den) : roundDiv (q * den) den = q := by
  unfold roundDiv
  rw [Nat.mul_mod_left, Nat.mul_div_cancel q hd, if_pos (by omega)]

/-! ## Shifts as powers -/

theorem unitsPerOne_eq : unitsPerOne = 2 ^ 1074 := by
  generalize hk : 1074 = k
  rw [unitsPerOne, hk, Nat.one_shiftLeft]

theorem units_eq (x : Double) :
    x.units = if x.code.val / 2 ^ 52 = 0 then x.code.val % 2 ^ 52
      else (2 ^ 52 + x.code.val % 2 ^ 52) * 2 ^ (x.code.val / 2 ^ 52 - 1) := by
  unfold units
  simp only [Nat.shiftLeft_eq, Nat.one_mul]

theorem ofRatio_eq (negative : Bool) (num den : Nat) :
    ofRatio negative num den =
      let whole := num * unitsPerOne / den
      let shift := if whole < 2 ^ 53 then 0 else Nat.log2 whole - 52
      ofCode negative (shift * 2 ^ 52 + roundDiv (num * unitsPerOne) (den * 2 ^ shift)) := by
  unfold ofRatio
  simp only [Nat.shiftLeft_eq, Nat.one_mul]

theorem ofDecimal_eq (negative : Bool) (m : Nat) (e : Int) :
    ofDecimal negative m e =
      let magnitude : Int := (Nat.toDigits 10 m).length + e
      if m = 0 ∨ magnitude < -400 then zero negative
      else if 400 < magnitude then infinity negative
      else if 0 ≤ e then ofRatio negative (m * 10 ^ e.toNat) 1
      else ofRatio negative m (10 ^ (-e).toNat) := rfl

/-! ## Numbers that numerals stand for -/

/-- Only the quotient counts, not how far it is reduced. -/
theorem ofRatio_mul_right (negative : Bool) (num den : Nat) {c : Nat} (hc : 0 < c) :
    ofRatio negative (num * c) (den * c) = ofRatio negative num den := by
  have hnum : num * c * unitsPerOne = num * unitsPerOne * c := Nat.mul_right_comm _ _ _
  have hden : ∀ s, den * c * 2 ^ s = den * 2 ^ s * c := fun s => Nat.mul_right_comm _ _ _
  rw [ofRatio_eq, ofRatio_eq]
  simp only [hnum, hden, Nat.mul_div_mul_right _ _ hc, roundDiv_mul_right hc]

theorem ofDecimal_zero (negative : Bool) (e : Int) : ofDecimal negative 0 e = zero negative := by
  rw [ofDecimal, if_pos (.inl rfl)]

theorem length_toDigits_mul_pow {m : Nat} (hm : 0 < m) (k : Nat) :
    (Nat.toDigits 10 (m * 10 ^ k)).length = (Nat.toDigits 10 m).length + k := by
  induction k with
  | zero => simp
  | succ k ih =>
    have h10 : 10 ≤ m * 10 ^ (k + 1) := by
      have : 0 < m * 10 ^ k := Nat.mul_pos hm (Nat.pow_pos (by omega))
      rw [Nat.pow_succ, ← Nat.mul_assoc]
      omega
    rw [Nat.toDigits_of_base_le (by omega) h10, List.length_append, Nat.pow_succ, ← Nat.mul_assoc,
      Nat.mul_div_cancel _ (by omega), ih]
    rfl

/--
**A numeral counts for its number.**

Zeros may be moved between the digits and the exponent.
-/
theorem ofDecimal_shift (negative : Bool) (m k : Nat) (e : Int) :
    ofDecimal negative (m * 10 ^ k) (e - k) = ofDecimal negative m e := by
  rcases Nat.eq_zero_or_pos m with rfl | hm
  · rw [Nat.zero_mul, ofDecimal_zero, ofDecimal_zero]
  have hk : 0 < 10 ^ k := Nat.pow_pos (by omega)
  have hmagnitude : ((Nat.toDigits 10 (m * 10 ^ k)).length : Int) + (e - k)
      = (Nat.toDigits 10 m).length + e := by
    rw [length_toDigits_mul_pow hm]
    omega
  have hzero : m * 10 ^ k = 0 ↔ m = 0 := by
    constructor
    · intro h
      exact absurd h (Nat.ne_of_gt (Nat.mul_pos hm hk))
    · omega
  rw [ofDecimal_eq, ofDecimal_eq, hmagnitude]
  simp only [hzero]
  split
  · rfl
  split
  · rfl
  by_cases he : 0 ≤ e
  · rw [if_pos he]
    by_cases hek : 0 ≤ e - k
    · -- the zeros are all digits again
      have : e.toNat = k + (e - k).toNat := by omega
      rw [if_pos hek, this, Nat.pow_add, Nat.mul_assoc]
    · -- there are more of them than the exponent had
      have hk' : k = e.toNat + (-(e - k)).toNat := by omega
      rw [if_neg hek, ← ofRatio_mul_right negative (m * 10 ^ e.toNat) 1
        (c := 10 ^ (-(e - k)).toNat) (Nat.pow_pos (by omega)), Nat.one_mul, Nat.mul_assoc,
        ← Nat.pow_add, ← hk']
  -- all of them go below the line, and are cancelled
  · have hk' : (-(e - k)).toNat = (-e).toNat + k := by omega
    rw [if_neg he, if_neg (by omega), hk', Nat.pow_add, ofRatio_mul_right negative _ _ hk]

/-! ## Exact values -/

/-- Whether a double is a number and not infinite. -/
def Finite (x : Double) : Prop := x.code.val < infinityCode

theorem finite_iff {x : Double} : x.Finite ↔ ¬x.isNaN ∧ ¬x.isInfinite := by
  simp only [Finite, isNaN, isInfinite, decide_eq_true_eq]
  omega

theorem eq_infinity {x : Double} (h : x.isInfinite = true) : x = .infinity x.negative := by
  obtain ⟨negative, code⟩ := x
  have : code = (infinity negative).code := Fin.ext (of_decide_eq_true h)
  rw [this]
  rfl

theorem eq_zero {x : Double} (h : x.isZero = true) : x = .zero x.negative := by
  obtain ⟨negative, code⟩ := x
  have : code = (zero negative).code := Fin.ext (of_decide_eq_true h)
  rw [this]
  rfl

theorem ofCode_of_finite {x : Double} (hx : x.Finite) : ofCode x.negative x.code.val = x := by
  have : min x.code.val infinityCode = x.code.val := Nat.min_eq_left (Nat.le_of_lt hx)
  unfold ofCode
  simp only [this]

/-- A finite double is so many units as its fraction, or as its fraction with a bit above it and
shifted. -/
theorem units_cases (x : Double) :
    (x.code.val < 2 ^ 52 ∧ x.units = x.code.val)
      ∨ ∃ f s, f < 2 ^ 52 ∧ x.code.val = (s + 1) * 2 ^ 52 + f ∧ x.units = (2 ^ 52 + f) * 2 ^ s := by
  have hcode := Nat.div_add_mod x.code.val (2 ^ 52)
  have hf : x.code.val % 2 ^ 52 < 2 ^ 52 := Nat.mod_lt _ (by omega)
  by_cases hE : x.code.val / 2 ^ 52 = 0
  · left
    rw [hE] at hcode
    refine ⟨by omega, ?_⟩
    rw [units_eq, if_pos hE]
    omega
  · right
    refine ⟨x.code.val % 2 ^ 52, x.code.val / 2 ^ 52 - 1, hf, ?_, ?_⟩
    · rw [Nat.sub_add_cancel (Nat.one_le_iff_ne_zero.2 hE)]
      omega
    · rw [units_eq, if_neg hE]

theorem units_pos {x : Double} (hx : x.code.val ≠ 0) : 0 < x.units := by
  rcases x.units_cases with ⟨_, hu⟩ | ⟨f, s, _, _, hu⟩ <;> rw [hu]
  · exact Nat.pos_of_ne_zero hx
  · exact Nat.mul_pos (Nat.add_pos_left (Nat.two_pow_pos 52) f) (Nat.two_pow_pos s)

theorem units_zero (negative : Bool) : (zero negative).units = 0 := by
  have hc : (zero negative).code.val = 0 := rfl
  rcases (zero negative).units_cases with ⟨_, hu⟩ | ⟨f, s, _, h, _⟩
  · rw [hu, hc]
  · omega

theorem mul_pow_lt {f s b : Nat} (hf : f < 2 ^ 52) (hs : s + 53 ≤ b) :
    (2 ^ 52 + f) * 2 ^ s < 2 ^ b := by
  calc (2 ^ 52 + f) * 2 ^ s < 2 ^ 53 * 2 ^ s :=
        Nat.mul_lt_mul_of_pos_right (by omega) (Nat.two_pow_pos s)
    _ = 2 ^ (53 + s) := (Nat.pow_add 2 53 s).symm
    _ ≤ 2 ^ b := Nat.pow_le_pow_right Nat.two_pos (by omega)

/-- The greatest finite double is less than `2 ^ 2098` units. -/
theorem units_lt {x : Double} (hx : x.Finite) {b : Nat} (hb : 2098 ≤ b) : x.units < 2 ^ b := by
  have hx' : x.code.val < 2047 * 2 ^ 52 := hx
  rcases x.units_cases with ⟨hc, hu⟩ | ⟨f, s, hf, hc, hu⟩ <;> rw [hu]
  · exact Nat.lt_of_lt_of_le hc (Nat.pow_le_pow_right Nat.two_pos (by omega))
  · exact mul_pow_lt hf (by omega)

theorem log2_mul_pow {f s : Nat} (hf : f < 2 ^ 52) : Nat.log2 ((2 ^ 52 + f) * 2 ^ s) = 52 + s := by
  refine (Nat.log2_eq_iff (Nat.ne_of_gt (Nat.mul_pos (Nat.add_pos_left (Nat.two_pow_pos 52) f)
    (Nat.two_pow_pos s)))).2 ⟨?_, ?_⟩
  · rw [Nat.pow_add]
    exact Nat.mul_le_mul_right _ (by omega)
  · exact mul_pow_lt hf (by omega)

/-- A whole number of units is rounded only as far as it has more bits than fit. -/
theorem ofRatio_whole (negative : Bool) (u : Nat) :
    ofRatio negative u unitsPerOne =
      ofCode negative ((if u < 2 ^ 53 then 0 else Nat.log2 u - 52) * 2 ^ 52
        + roundDiv u (2 ^ if u < 2 ^ 53 then 0 else Nat.log2 u - 52)) := by
  have hU : 0 < unitsPerOne := by decide +kernel
  rw [ofRatio_eq, Nat.mul_div_cancel _ hU]
  dsimp only
  rw [Nat.mul_comm unitsPerOne, roundDiv_mul_right hU]

/-- The units of a double are not rounded at all. -/
theorem ofRatio_units {x : Double} (hx : x.Finite) :
    ofRatio x.negative x.units unitsPerOne = x := by
  rw [ofRatio_whole]
  refine Eq.trans (congrArg (ofCode x.negative) ?_) (ofCode_of_finite hx)
  rcases x.units_cases with ⟨hc, hu⟩ | ⟨f, s, hf, hc, hu⟩
  · rw [if_pos (by omega), hu]
    have := roundDiv_mul_self (q := x.code.val) Nat.one_pos
    rw [Nat.mul_one] at this
    rw [Nat.pow_zero, this]
    omega
  · have hshift : (if x.units < 2 ^ 53 then 0 else Nat.log2 x.units - 52) = s := by
      rcases Nat.eq_zero_or_pos s with rfl | hs
      · rw [if_pos (by rw [hu]; exact mul_pow_lt hf (by omega))]
      · rw [if_neg, hu, log2_mul_pow hf]
        · omega
        · rw [hu, Nat.not_lt]
          calc 2 ^ 53 = 2 ^ 52 * 2 ^ 1 := (Nat.pow_add 2 52 1)
            _ ≤ (2 ^ 52 + f) * 2 ^ s :=
                Nat.mul_le_mul (by omega) (Nat.pow_le_pow_right Nat.two_pos hs)
    -- the shift is the one that the double was made with, so no bit is lost
    rw [hshift, hu, roundDiv_mul_self (Nat.two_pow_pos s), hc]
    omega

/-- A numeral of moderate size that denotes `u / 2 ^ k`. -/
theorem ofDecimal_of_halves (negative : Bool) {u k : Nat} (hu : 0 < u) (hk : 401 < k)
    (hlow : 10 ^ (k - 401) ≤ 5 ^ k) (hhigh : u * 5 ^ k < 10 ^ (k + 400)) :
    ofDecimal negative (u * 5 ^ k) (-(k : Int)) = ofRatio negative u (2 ^ k) := by
  have h5 : 0 < 5 ^ k := Nat.pow_pos (by omega)
  have hpos : 0 < u * 5 ^ k := Nat.mul_pos hu h5
  -- neither of the two cut-offs for huge exponents applies
  have hmin : ¬(Nat.toDigits 10 (u * 5 ^ k)).length ≤ k - 401 := by
    rw [Nat.length_toDigits_le_iff (by omega) (Nat.sub_pos_of_lt hk), Nat.not_lt]
    exact Nat.le_trans hlow (Nat.le_mul_of_pos_left _ hu)
  have hmax : (Nat.toDigits 10 (u * 5 ^ k)).length ≤ k + 400 :=
    (Nat.length_toDigits_le_iff (by omega) (by omega)).2 hhigh
  rw [ofDecimal_eq]
  dsimp only
  rw [if_neg (by omega), if_neg (by omega), if_neg (by omega), Int.neg_neg, Int.toNat_natCast,
    show 10 ^ k = 2 ^ k * 5 ^ k from Nat.mul_pow 2 5 k, ofRatio_mul_right negative u _ h5]

/-- The exact value of a double has at most 1074 digits behind the point. -/
theorem ofDecimal_exact {x : Double} (hx : x.Finite) (h0 : 0 < x.units) :
    ofDecimal x.negative (x.units * 5 ^ 1074) (-1074) = x := by
  have h5 : 0 < 5 ^ 1074 := by decide +kernel
  have hmax : 2 ^ 2098 * 5 ^ 1074 < 10 ^ (1074 + 400) := by decide +kernel
  have hunits := Nat.mul_lt_mul_of_pos_right (units_lt hx (Nat.le_refl 2098)) h5
  have hhigh := Nat.lt_trans hunits hmax
  have hlow : 10 ^ (1074 - 401) ≤ 5 ^ 1074 := by decide +kernel
  have hread := ofRatio_units hx
  rw [unitsPerOne_eq] at hread
  exact (ofDecimal_of_halves (k := 1074) x.negative h0 (by decide) hlow hhigh).trans hread

/-! ## The digits that are chosen -/

theorem eq_of_tried {α : Type} {p q : Prop} [Decidable p] [Decidable q] {a b r : α}
    (h : (if p then some a else if q then some b else none) = some r) : (p ∧ a = r) ∨ (q ∧ b = r) := by
  split at h
  · exact .inl ⟨‹p›, Option.some.inj h⟩
  split at h
  · exact .inr ⟨‹q›, Option.some.inj h⟩
  · cases h

theorem ofDecimal_of_numeral? {x : Double} {n : Nat} {r : Nat × Int} (h : x.numeral? n = some r) :
    ofDecimal x.negative r.1 r.2 = x := by
  unfold numeral? at h
  dsimp only at h
  rcases eq_of_tried h with ⟨hx, hr⟩ | ⟨hx, hr⟩
  · rw [← hr, hx]
  · rw [← hr, hx]

theorem shortest_cases (x : Double) :
    (∃ n, x.numeral? n = some x.shortest) ∨ x.shortest = (x.units * 5 ^ 1074, -1074) := by
  unfold shortest
  cases h : (List.range 17).findSome? fun n => x.numeral? (n + 1) with
  | none => exact .inr (Option.getD_none ..)
  | some r =>
    obtain ⟨n, _, hn⟩ := List.exists_of_findSome?_eq_some h
    exact .inl ⟨n + 1, by rw [hn, Option.getD_some]⟩

/-- **The digits of a double read back as it.** -/
theorem ofDecimal_shortest {x : Double} (hx : x.Finite) (h0 : 0 < x.units) :
    ofDecimal x.negative x.shortest.1 x.shortest.2 = x := by
  rcases x.shortest_cases with ⟨n, hn⟩ | hs
  · exact ofDecimal_of_numeral? hn
  · rw [hs]
    exact ofDecimal_exact hx h0

end Changefeed.Double
