import Mathlib.Algebra.Group.Nat.Defs
import Mathlib.Data.List.Induction
import Changefeed.Position.Reading
import Changefeed.Proofs.Text.Trim
import Changefeed.Proofs.Text.Units

/-!
# Numerals read back

A number written in decimal digits is read back as that number: digits by
themselves (`value_toDigits`), whole numbers (`read_digits`), and the text of
a position (`Position.ofText_text`), which is what a checkpoint file holds.
-/

namespace Changefeed.Text.Decimal

/-! ## Digits -/

theorem isDigit_iff {c : Char} : isDigit c = true ↔ 48 ≤ c.toNat ∧ c.toNat ≤ 57 := by
  simp only [isDigit, Bool.and_eq_true, decide_eq_true_eq]
  exact Iff.rfl

theorem isDigit_of_mem_toDigits {c : Char} {n : Nat} (h : c ∈ Nat.toDigits 10 n) :
    isDigit c = true := by
  have hc := Nat.isDigit_of_mem_toDigits (by omega) (by omega) h
  simp only [Char.isDigit, Bool.and_eq_true, decide_eq_true_eq] at hc
  exact isDigit_iff.2 ⟨hc.1, hc.2⟩

theorem value_eq (cs : List Char) : value cs = Nat.ofDigitChars 10 cs 0 := by
  rw [Nat.ofDigitChars_eq_foldl]
  rfl

@[simp] theorem value_toDigits (n : Nat) : value (Nat.toDigits 10 n) = n := by
  rw [value_eq, Nat.ofDigitChars_ten_toDigits]

theorem value_append (xs ys : List Char) :
    value (xs ++ ys) = value xs * 10 ^ ys.length + value ys := by
  rw [value_eq, value_eq, value_eq, Nat.ofDigitChars_append, Nat.ofDigitChars_eq_ofDigitChars_zero,
    Nat.mul_comm]

/-- So many digits stand for a number below that power of ten. -/
theorem value_lt {cs : List Char} (h : ∀ c ∈ cs, isDigit c = true) : value cs < 10 ^ cs.length := by
  induction cs with
  | nil => exact Nat.one_pos
  | cons c cs ih =>
    have hc := isDigit_iff.1 (h c List.mem_cons_self)
    have hcs := ih fun d hd => h d (List.mem_cons_of_mem _ hd)
    have hv : value [c] = c.toNat - 48 := by
      show 10 * 0 + (c.toNat - 48) = _
      omega
    have happ := value_append [c] cs
    rw [List.singleton_append, hv] at happ
    rw [happ, List.length_cons, Nat.pow_succ]
    have : (c.toNat - 48) * 10 ^ cs.length ≤ 9 * 10 ^ cs.length := Nat.mul_le_mul_right _ (by omega)
    omega

/-- The numbers that can be written are those below a power of ten. -/
theorem isShort_iff {n : Int} : isShort n = true ↔ n.natAbs < 10 ^ longest := by
  unfold isShort
  rw [decide_eq_true_iff, Nat.length_toDigits_le_iff (by omega) (by decide)]

theorem isShort_eq_false_iff {n : Int} : isShort n = false ↔ 10 ^ longest ≤ n.natAbs := by
  rw [← Bool.not_eq_true, isShort_iff, Nat.not_lt]

/-- There is room for far more than 64 bits. -/
theorem le_pow_longest : 2 ^ 64 ≤ 10 ^ longest := by
  have hpow : 10 ^ 20 ≤ 10 ^ longest := Nat.pow_le_pow_right (by omega) (by decide)
  omega

theorem isShort_of_lt {n : Int} (h : n.natAbs < 2 ^ 64) : isShort n = true :=
  isShort_iff.2 (Nat.lt_of_lt_of_le h le_pow_longest)

/-- The least number with a digit too many. -/
def longNumber : Int := ((10 ^ longest : Nat) : Int)

theorem natAbs_longNumber : longNumber.natAbs = 10 ^ longest := Int.natAbs_natCast _

theorem isShort_longNumber : isShort longNumber = false :=
  isShort_eq_false_iff.2 (Nat.le_of_eq natAbs_longNumber.symm)

/-- A number that was read can be written. -/
theorem isShort_signed {ds : List Char} (negative : Bool) (hd : ∀ c ∈ ds, isDigit c = true)
    (hlen : ds.length ≤ longest) : isShort (signed negative (value ds)) = true := by
  -- the sign does not count for the length
  have habs : (signed negative (value ds)).natAbs = value ds := by
    unfold signed
    split <;> omega
  rw [isShort_iff, habs]
  exact Nat.lt_of_lt_of_le (value_lt hd) (Nat.pow_le_pow_right (by omega) hlen)

/-- Only zero is written with a zero in front. -/
theorem head_toDigits {n : Nat} (h : 0 < n) : ∃ c cs, Nat.toDigits 10 n = c :: cs ∧ c ≠ '0' := by
  induction n using Nat.strongRecOn with
  | ind n ih =>
    by_cases h10 : n < 10
    · refine ⟨n.digitChar, [], Nat.toDigits_of_lt_base h10, ?_⟩
      have : ∀ m, m < 10 → 0 < m → m.digitChar ≠ '0' := by decide
      exact this n h10 h
    · obtain ⟨c, cs, hcs, hc⟩ := ih (n / 10) (by omega) (by omega)
      refine ⟨c, cs ++ [(n % 10).digitChar], ?_, hc⟩
      rw [Nat.toDigits_of_base_le (by omega) (by omega), hcs]
      rfl

theorem digitChar_of_digit {c : Char} (h : isDigit c = true) : (c.toNat - 48).digitChar = c := by
  have hc := isDigit_iff.1 h
  rw [← Char.toNat_inj, Nat.toNat_digitChar_of_lt_ten (by omega)]
  omega

/-- Digits with no zero in front of others are how the number that they stand for is written. -/
theorem toDigits_value {cs : List Char} (hne : cs ≠ []) (hd : ∀ c ∈ cs, isDigit c = true)
    (hzero : cs.head? = some '0' → cs = ['0']) : Nat.toDigits 10 (value cs) = cs := by
  -- from the right, as the digits come off a number
  induction cs using List.reverseRecOn with
  | nil => exact absurd rfl hne
  | append_singleton front c ih =>
    have hc := hd c (List.mem_append_right _ (List.mem_singleton_self c))
    have hbounds := isDigit_iff.1 hc
    have hlast : value [c] = c.toNat - 48 := by
      show 10 * 0 + (c.toNat - 48) = _
      omega
    rcases front with _ | ⟨d, rest⟩
    · rw [List.nil_append, hlast, Nat.toDigits_of_lt_base (by omega), digitChar_of_digit hc]
    · have hhead : d ≠ '0' := by
        rintro rfl
        simp at hzero
      have hfront := ih (List.cons_ne_nil d rest) (fun e he => hd e (List.mem_append_left _ he))
        (fun h => absurd (Option.some.inj h) hhead)
      have hpos : 0 < value (d :: rest) := by
        refine Nat.pos_of_ne_zero fun h0 => hhead ?_
        rw [h0, Nat.toDigits_zero] at hfront
        exact (List.cons.inj hfront).1.symm
      have hvalue : value (d :: rest ++ [c]) = value (d :: rest) * 10 + (c.toNat - 48) := by
        rw [value_append, hlast]
        rfl
      rw [hvalue, Nat.toDigits_of_base_le (by omega) (by omega),
        show (value (d :: rest) * 10 + (c.toNat - 48)) / 10 = value (d :: rest) by omega,
        show (value (d :: rest) * 10 + (c.toNat - 48)) % 10 = c.toNat - 48 by omega,
        digitChar_of_digit hc, hfront]

/-! ## Whole numbers -/

theorem splitSign_of_digit {c : Char} {cs : List Char} (h : isDigit c = true) :
    splitSign (c :: cs) = (false, c :: cs) := by
  have hc := isDigit_iff.1 h
  unfold splitSign
  split
  · rename_i he
    injection he with he _
    rw [he] at hc
    exact absurd hc (by decide)
  · rename_i he
    injection he with he _
    rw [he] at hc
    exact absurd hc (by decide)
  · rfl

/-- Digits that are not too many are read as the number they stand for. -/
theorem read_digits {cs : List Char} (hne : cs ≠ []) (hd : ∀ c ∈ cs, isDigit c = true)
    (hl : cs.length ≤ longest) : read cs = .number (value cs) := by
  obtain ⟨c, rest, rfl⟩ := List.exists_cons_of_ne_nil hne
  unfold read
  rw [splitSign_of_digit (hd c List.mem_cons_self)]
  dsimp only
  rw [if_neg, if_neg (by omega)]
  · rfl
  · simpa using hd

/-! ## Written alike -/

theorem digitChar_inj {b m n : Nat} (hb : b ≤ 16) (hm : m < b) (hn : n < b)
    (h : m.digitChar = n.digitChar) : m = n := by
  have hall : ∀ i < 16, ∀ j < 16, i.digitChar = j.digitChar → i = j := by decide
  exact hall m (by omega) n (by omega) h

/-- Numbers that are written alike are equal, in any base that has the digits for it. -/
theorem toDigits_inj {b : Nat} (h1 : 1 < b) (hb : b ≤ 16) {m n : Nat} :
    Nat.toDigits b m = Nat.toDigits b n ↔ m = n := by
  refine ⟨?_, congrArg _⟩
  induction m using Nat.strongRecOn generalizing n with
  | ind m ih =>
    intro h
    rcases Nat.lt_or_ge m b with hm | hm <;> rcases Nat.lt_or_ge n b with hn | hn
    · rw [Nat.toDigits_of_lt_base hm, Nat.toDigits_of_lt_base hn] at h
      exact digitChar_inj hb hm hn (List.cons.inj h).1
    · -- one digit against two or more
      rw [Nat.toDigits_of_lt_base hm, Nat.toDigits_of_base_le h1 hn] at h
      have hlength := congrArg List.length h
      rw [List.length_append] at hlength
      have := List.length_pos_iff.2 (Nat.toDigits_ne_nil (b := b) (n := n / b))
      simp only [List.length_singleton] at hlength
      omega
    · rw [Nat.toDigits_of_base_le h1 hm, Nat.toDigits_of_lt_base hn] at h
      have hlength := congrArg List.length h
      rw [List.length_append] at hlength
      have := List.length_pos_iff.2 (Nat.toDigits_ne_nil (b := b) (n := m / b))
      simp only [List.length_singleton] at hlength
      omega
    · rw [Nat.toDigits_of_base_le h1 hm, Nat.toDigits_of_base_le h1 hn] at h
      obtain ⟨hfront, hlast⟩ := List.append_inj' h rfl
      have hdiv := ih (m / b) (Nat.div_lt_self (by omega) h1) hfront
      have hmod := digitChar_inj hb (Nat.mod_lt m (by omega)) (Nat.mod_lt n (by omega))
        (List.cons.inj hlast).1
      rw [← Nat.div_add_mod m b, ← Nat.div_add_mod n b, hdiv, hmod]

/-- A whole number is written as the digits of its size, with a minus in front if it is below
zero. -/
theorem toList_intToString (n : Int) :
    (toString n).toList = (if decide (n < 0) then ['-'] else []) ++ Nat.toDigits 10 n.natAbs := by
  cases n with
  | ofNat k =>
    show (Nat.repr k).toList = _
    rw [Nat.repr, String.toList_ofList]
    simp
  | negSucc k =>
    show ("-" ++ Nat.repr (k + 1)).toList = _
    rw [String.toList_append, Nat.repr, String.toList_ofList]
    simp

theorem mem_intToString {c : Char} {n : Int} (h : c ∈ (toString n).toList) :
    c = '-' ∨ isDigit c = true := by
  rw [toList_intToString, List.mem_append] at h
  rcases h with h | h
  · split at h
    · exact .inl (List.mem_singleton.1 h)
    · cases h
  · exact .inr (isDigit_of_mem_toDigits h)

/-- Whole numbers that are written alike are equal. -/
theorem intToString_inj {m n : Int} : toString m = toString n ↔ m = n := by
  refine ⟨fun h => ?_, congrArg _⟩
  -- no numeral without a minus begins with one
  have hminus : ∀ {k : Nat} {cs : List Char}, Nat.toDigits 10 k ≠ '-' :: cs := by
    intro k cs hk
    have := isDigit_of_mem_toDigits (hk ▸ List.mem_cons_self : '-' ∈ Nat.toDigits 10 k)
    exact absurd this (by decide)
  rw [← String.toList_inj, toList_intToString, toList_intToString] at h
  by_cases hm : m < 0 <;> by_cases hn : n < 0 <;> simp only [hm, hn, decide_true, decide_false,
    if_true, List.singleton_append, Bool.false_eq_true, if_false, List.nil_append] at h
  · have := (toDigits_inj (by omega) (by omega)).1 (List.cons.inj h).2
    omega
  · exact absurd h.symm hminus
  · exact absurd h hminus
  · have := (toDigits_inj (by omega) (by omega)).1 h
    omega

end Changefeed.Text.Decimal

namespace Changefeed.Text

/-! ## Blanks -/

theorem isBlank_of_digit {c : Char} (h : Decimal.isDigit c = true) : isBlank c = false := by
  obtain ⟨hl, hr⟩ := Decimal.isDigit_iff.1 h
  unfold isBlank
  rw [List.any_eq_false]
  intro r hr'
  have hfar : ∀ r ∈ blankRanges, r.2 < 48 ∨ 57 < r.1 := by decide
  have := hfar r hr'
  simp only [Bool.and_eq_true, decide_eq_true_eq]
  omega

theorem upper_of_digit {c : Char} (h : Decimal.isDigit c = true) : upper c = c := by
  obtain ⟨_, hr⟩ := Decimal.isDigit_iff.1 h
  unfold upper Char.toUpper
  rw [dif_neg]
  rintro ⟨hl, -⟩
  have : (97 : Nat) ≤ c.toNat := hl
  omega

end Changefeed.Text

namespace Changefeed.Position

/-! ## Positions -/

theorem ofInt_natCast (n : Sequence) : ofInt (n.val : Int) = .ok (known n) := by
  have hn : (n.val : Int) < 2 ^ 63 := by
    have h : n.val < 2 ^ 63 := n.isLt
    omega
  unfold ofInt
  rw [if_neg (by omega), dif_pos ⟨by omega, hn⟩]
  rfl

/-- The text of a sequence is far shorter than a numeral may be. -/
theorem length_toDigits_le (n : Sequence) : (Nat.toDigits 10 n.val).length ≤ Text.Decimal.longest := by
  refine Nat.le_trans ((Nat.length_toDigits_le_iff (by omega) (by omega)).2 ?_)
    (show 19 ≤ Text.Decimal.longest by decide)
  have h : n.val < 2 ^ 63 := n.isLt
  omega

/-- A string of characters is read as such. -/
theorem ofText_ofString (s : String) : ofText s = ofTextIn (.text s) s := by
  unfold ofText
  rw [Text.plain?_ofString]

/-- **The text of a position denotes it.** -/
theorem ofText_text (p : Position) : ofText p.text = .ok p := by
  cases p with
  | null => rfl
  | known n =>
    have hd : ∀ c ∈ Nat.toDigits 10 n.val, Text.Decimal.isDigit c = true :=
      fun c hc => Text.Decimal.isDigit_of_mem_toDigits hc
    have hl : (text (known n)).toList = Nat.toDigits 10 n.val := by
      show (toString n.val).toList = _
      rw [Nat.toString_eq_ofList_toDigits, String.toList_ofList]
    have ht : Text.trim (text (known n)) = text (known n) :=
      Text.trim_eq_self (.of_no_blank fun c hc => Text.isBlank_of_digit (hd c (hl ▸ hc)))
    have hnull : Text.uppered (text (known n)) ≠ "NULL" := by
      intro he
      obtain ⟨c, cs, hcs⟩ := List.exists_cons_of_ne_nil (Nat.toDigits_ne_nil (b := 10) (n := n.val))
      have hc : Text.upper c = 'N' := by
        have := congrArg String.toList he
        rw [Text.uppered, String.toList_ofList, hl, hcs] at this
        exact (List.cons.inj this).1
      have hdc := hd c (hcs ▸ List.mem_cons_self)
      rw [Text.upper_of_digit hdc] at hc
      rw [hc] at hdc
      exact absurd hdc (by decide)
    rw [ofText_ofString]
    unfold ofTextIn
    dsimp only
    rw [ht, if_neg hnull, hl,
      Text.Decimal.read_digits Nat.toDigits_ne_nil hd (length_toDigits_le n)]
    dsimp only
    rw [Text.Decimal.value_toDigits]
    exact ofInt_natCast n

end Changefeed.Position
