import Changefeed.Json.Reader
import Changefeed.Json.Writer
import Changefeed.Proofs.Double.Reading
import Changefeed.Proofs.Text.Decimal

/-!
# Numbers in documents read back

A whole number that is not too long, and every double but those that are no
number in an unusual way, is read from a document as what was written. The
number may stand inside a list or a record, so what is read is the number and
what stands behind it: nothing, or a character that ends a part (`Closed`).
-/

namespace Changefeed.Json

open Text.Decimal (isDigit value)

/-- Nothing stands here, or a character that ends a part of a document. -/
def Closed (rest : List Char) : Prop :=
  ∀ c cs, rest = c :: cs → c = ',' ∨ c = ']' ∨ c = '\x7d'

theorem Closed.nil : Closed [] := by
  intro c cs h
  cases h

theorem Closed.cons {c : Char} {cs : List Char} (h : c = ',' ∨ c = ']' ∨ c = '\x7d') :
    Closed (c :: cs) := by
  rintro _ _ ⟨⟩
  exact h

/-! ## Digits -/

theorem takeWhile_digits {ds rest : List Char} (hd : ∀ d ∈ ds, isDigit d = true)
    (hr : ∀ c cs, rest = c :: cs → isDigit c = false) : (ds ++ rest).takeWhile isDigit = ds := by
  rw [List.takeWhile_append_of_pos hd]
  cases rest with
  | nil => simp
  | cons c cs => rw [List.takeWhile_cons_of_neg (by simp [hr c cs rfl]), List.append_nil]

theorem Closed.not_digit {rest : List Char} (hr : Closed rest) :
    ∀ c cs, rest = c :: cs → isDigit c = false := by
  intro c cs h
  rcases hr c cs h with rfl | rfl | rfl <;> decide

theorem readWhole_digits {d : Char} {ds rest : List Char} (h0 : d ≠ '0')
    (hd : ∀ c ∈ d :: ds, isDigit c = true) (hr : ∀ c cs, rest = c :: cs → isDigit c = false) :
    readWhole (d :: ds ++ rest) = (d :: ds, rest) := by
  have htake := takeWhile_digits hd hr
  unfold readWhole
  split
  · rename_i he
    injection he with he _
    exact absurd he h0
  · dsimp only
    rw [htake, List.drop_left]

theorem readFraction_digits {ds rest : List Char} (hne : ds ≠ []) (hd : ∀ c ∈ ds, isDigit c = true)
    (hr : ∀ c cs, rest = c :: cs → isDigit c = false) :
    readFraction ('.' :: (ds ++ rest)) = (ds, rest) := by
  have htake := takeWhile_digits hd hr
  show (if ((ds ++ rest).takeWhile isDigit).isEmpty then ([], '.' :: (ds ++ rest))
    else ((ds ++ rest).takeWhile isDigit, (ds ++ rest).drop ((ds ++ rest).takeWhile isDigit).length)) = _
  rw [htake, List.drop_left, if_neg (by simpa using hne)]

theorem readFraction_none {rest : List Char} (h : ∀ cs, rest ≠ '.' :: cs) :
    readFraction rest = ([], rest) := by
  unfold readFraction
  split
  · exact absurd rfl (h _)
  · rfl

theorem readExponent_digits (negative : Bool) {ds rest : List Char} (hne : ds ≠ [])
    (hd : ∀ c ∈ ds, isDigit c = true) (hr : ∀ c cs, rest = c :: cs → isDigit c = false) :
    readExponent ('e' :: (if negative then '-' else '+') :: (ds ++ rest)) =
      (some (Text.Decimal.signed negative (value ds)), rest) := by
  have hsign : Text.Decimal.splitSign ((if negative then '-' else '+') :: (ds ++ rest)) =
      (negative, ds ++ rest) := by cases negative <;> rfl
  unfold readExponent
  dsimp only
  rw [if_pos (.inl rfl), hsign]
  dsimp only
  rw [takeWhile_digits hd hr, List.drop_left, if_neg (by simpa using hne)]

theorem readExponent_none {rest : List Char} (h : Closed rest) : readExponent rest = (none, rest) := by
  unfold readExponent
  cases rest with
  | nil => rfl
  | cons c cs =>
    dsimp only
    rw [if_neg]
    rcases h c cs rfl with rfl | rfl | rfl <;> decide

theorem Closed.not_point {rest : List Char} (h : Closed rest) : ∀ cs, rest ≠ '.' :: cs := by
  intro cs he
  rcases h _ _ he with h | h | h <;> exact absurd h (by decide)

/-! ## Numerals -/

/-- A numeral without a fraction and an exponent is read as a whole number. -/
theorem readNumber_whole {negative : Bool} {whole rest cs : List Char} (hw : readWhole cs = (whole, rest))
    (hne : whole ≠ []) (hl : whole.length ≤ Text.Decimal.longest) (hr : Closed rest) :
    readNumber negative cs = .ok (.int (Text.Decimal.signed negative (value whole)), rest) := by
  unfold readNumber
  rw [hw]
  dsimp only
  rw [readFraction_none hr.not_point]
  dsimp only
  rw [readExponent_none hr]
  dsimp only
  rw [if_neg (by simpa using hne), if_pos (by rfl), if_neg (by omega)]

/-- A numeral with one of them is read as a double. -/
theorem readNumber_double (negative : Bool) {cs r₁ r₂ rest whole fraction : List Char}
    {exponent : Option Int} (hw : readWhole cs = (whole, r₁)) (hf : readFraction r₁ = (fraction, r₂))
    (he : readExponent r₂ = (exponent, rest)) (hne : whole ≠ [])
    (hd : fraction ≠ [] ∨ exponent.isSome = true) :
    readNumber negative cs = .ok (.float (Double.ofDecimal negative (value (whole ++ fraction))
      (exponent.getD 0 - fraction.length)), rest) := by
  unfold readNumber
  rw [hw]
  dsimp only
  rw [hf]
  dsimp only
  rw [he]
  dsimp only
  rw [if_neg (by simpa using hne), if_neg]
  rintro h
  rw [Bool.and_eq_true, List.isEmpty_iff, Option.isNone_iff_eq_none] at h
  rcases hd with hd | hd
  · exact hd h.1
  · rw [h.2] at hd
    cases hd

/-! ## Digits in a layout -/

theorem isDigit_zeros {n : Int} {c : Char} (h : c ∈ Double.zeros n) : isDigit c = true := by
  rw [List.eq_of_mem_replicate h]
  rfl

theorem value_zeros_append (n : Int) (ds : List Char) : value (Double.zeros n ++ ds) = value ds := by
  rw [Text.Decimal.value_append]
  have : value (Double.zeros n) = 0 := by
    unfold Double.zeros
    induction n.toNat with
    | zero => rfl
    | succ k ih => rw [List.replicate_succ', Text.Decimal.value_append, ih]; rfl
  rw [this]
  omega

theorem value_append_zeros (ds : List Char) (k : Nat) :
    value (ds ++ List.replicate k '0') = value ds * 10 ^ k := by
  have hz := value_zeros_append k []
  rw [List.append_nil] at hz
  have hz' : value (List.replicate k '0') = 0 := hz
  rw [Text.Decimal.value_append, hz', List.length_replicate]
  rfl

theorem not_digit_of_point {cs : List Char} :
    ∀ c cs', ('.' :: cs : List Char) = c :: cs' → isDigit c = false := by
  rintro _ _ ⟨⟩
  rfl

/-- A numeral with a point and no exponent is read as its digits say. -/
theorem readNumber_point (negative : Bool) {cs whole fraction rest : List Char}
    (hw : readWhole cs = (whole, '.' :: (fraction ++ rest))) (hne : whole ≠ []) (hf : fraction ≠ [])
    (hd : ∀ c ∈ fraction, isDigit c = true) (hr : Closed rest) :
    readNumber negative cs = .ok (.float (Double.ofDecimal negative (value (whole ++ fraction))
      (-(fraction.length : Int))), rest) := by
  have h := readNumber_double negative hw (readFraction_digits hf hd hr.not_digit)
    (readExponent_none hr) hne (.inl hf)
  rwa [Option.getD_none, Int.zero_sub] at h

section Plain

-- the digits begin with one that is not zero, and that one counts `10 ^ power`
variable (negative : Bool) {d : Char} {ds rest : List Char} {power : Int}

/-- Zeros on both sides of the point. -/
theorem readNumber_leadingZeros (hneg : power < 0) (hd : ∀ c ∈ d :: ds, isDigit c = true)
    (hr : Closed rest) :
    readNumber negative ('0' :: '.' :: Double.zeros (-power - 1) ++ d :: ds ++ rest) =
      .ok (.float (Double.ofDecimal negative (value (d :: ds)) (power - ds.length)), rest) := by
  have hwhole : readWhole ('0' :: '.' :: (Double.zeros (-power - 1) ++ d :: ds ++ rest)) =
      (['0'], '.' :: (Double.zeros (-power - 1) ++ d :: ds ++ rest)) := rfl
  have hdigits : ∀ c ∈ Double.zeros (-power - 1) ++ d :: ds, isDigit c = true := by
    intro c hc
    rcases List.mem_append.1 hc with hc | hc
    · exact isDigit_zeros hc
    · exact hd c hc
  have h := readNumber_point negative hwhole (by simp) (by simp) hdigits hr
  have hv : value (['0'] ++ (Double.zeros (-power - 1) ++ d :: ds)) = value (d :: ds) :=
    value_zeros_append (-power - 1) (d :: ds)
  have he : -((Double.zeros (-power - 1) ++ d :: ds).length : Int) = power - ds.length := by
    simp only [Double.zeros, List.length_append, List.length_replicate, List.length_cons]
    omega
  rw [hv, he] at h
  exact h

/-- Zeros between the digits and the point. -/
theorem readNumber_trailingZeros (h0 : d ≠ '0') (hd : ∀ c ∈ d :: ds, isDigit c = true)
    (hr : Closed rest) {z : Int} (hz : power + 1 - (d :: ds).length = z) (hnonneg : 0 ≤ z) :
    readNumber negative (d :: ds ++ Double.zeros z ++ ['.', '0'] ++ rest) =
      .ok (.float (Double.ofDecimal negative (value (d :: ds)) (power - ds.length)), rest) := by
  have hwhole : readWhole (d :: (ds ++ Double.zeros z) ++ '.' :: (['0'] ++ rest)) =
      (d :: (ds ++ Double.zeros z), '.' :: (['0'] ++ rest)) := by
    refine readWhole_digits h0 ?_ not_digit_of_point
    intro c hc
    rcases List.mem_append.1 (show c ∈ (d :: ds) ++ Double.zeros z from hc) with hc | hc
    · exact hd c hc
    · exact isDigit_zeros hc
  have h := readNumber_point negative hwhole (by simp) (by simp) (by simp [isDigit]) hr
  -- the zeros, and the one behind the point, only shift the digits
  have hv : value (d :: (ds ++ Double.zeros z) ++ ['0']) = value (d :: ds) * 10 ^ (z.toNat + 1) := by
    rw [← value_append_zeros, List.replicate_succ']
    simp [Double.zeros]
  have he : -((['0'] : List Char).length : Int) = power - ds.length - ((z.toNat + 1 : Nat) : Int) := by
    simp only [List.length_cons, List.length_nil] at hz ⊢
    omega
  rw [hv, he, Double.ofDecimal_shift] at h
  simpa using h

/-- The point among the digits. -/
theorem readNumber_pointAmong (h0 : d ≠ '0') (hd : ∀ c ∈ d :: ds, isDigit c = true)
    (hr : Closed rest) {k : Nat} (hk : power = k) (hlt : k < ds.length) :
    readNumber negative (d :: ds.take k ++ '.' :: ds.drop k ++ rest) =
      .ok (.float (Double.ofDecimal negative (value (d :: ds)) (power - ds.length)), rest) := by
  have hwhole : readWhole (d :: ds.take k ++ '.' :: (ds.drop k ++ rest)) =
      (d :: ds.take k, '.' :: (ds.drop k ++ rest)) := by
    refine readWhole_digits h0 ?_ not_digit_of_point
    intro c hc
    rcases List.mem_cons.1 hc with rfl | hc
    · exact hd c List.mem_cons_self
    · exact hd c (List.mem_cons_of_mem _ (List.mem_of_mem_take hc))
  have h := readNumber_point negative hwhole (by simp) (by simpa using hlt)
    (fun c hc => hd c (List.mem_cons_of_mem _ (List.mem_of_mem_drop hc))) hr
  have hv : d :: ds.take k ++ ds.drop k = d :: ds := congrArg (d :: ·) (List.take_append_drop _ ds)
  have he : -((ds.drop k).length : Int) = power - ds.length := by
    rw [List.length_drop]
    omega
  rw [hv, he] at h
  simpa using h

/-- **A number laid out without an exponent is read as its digits say.** -/
theorem readNumber_plainText (power : Int) (h0 : d ≠ '0') (hd : ∀ c ∈ d :: ds, isDigit c = true)
    (hr : Closed rest) :
    readNumber negative (Double.plainText (d :: ds) power ++ rest) =
      .ok (.float (Double.ofDecimal negative (value (d :: ds)) (power - ds.length)), rest) := by
  unfold Double.plainText
  by_cases hneg : power < 0
  · rw [if_pos hneg]
    exact readNumber_leadingZeros negative hneg hd hr
  rw [if_neg hneg]
  dsimp only
  by_cases hlen : (d :: ds).length ≤ power.toNat + 1
  · rw [if_pos hlen]
    exact readNumber_trailingZeros negative h0 hd hr (by omega) (by omega)
  · rw [if_neg hlen, List.take_succ_cons, List.drop_succ_cons]
    simp only [List.length_cons] at hlen
    exact readNumber_pointAmong negative h0 hd hr (by omega) (by omega)

end Plain

/-- The digits of an exponent, filled up with zeros to a width. -/
def exponentDigits (layout : Double.Layout) (power : Int) : List Char :=
  Double.zeros (layout.exponentWidth - (Nat.toDigits 10 power.natAbs).length) ++
    Nat.toDigits 10 power.natAbs

theorem isDigit_exponentDigits {layout : Double.Layout} {power : Int} {c : Char}
    (h : c ∈ exponentDigits layout power) : isDigit c = true := by
  rcases List.mem_append.1 h with h | h
  · exact isDigit_zeros h
  · exact Text.Decimal.isDigit_of_mem_toDigits h

theorem signed_exponentDigits (layout : Double.Layout) (power : Int) :
    Text.Decimal.signed (power < 0) (value (exponentDigits layout power)) = power := by
  unfold exponentDigits Text.Decimal.signed
  rw [value_zeros_append, Text.Decimal.value_toDigits]
  by_cases h : power < 0
  · rw [if_pos (decide_eq_true h)]
    omega
  · rw [if_neg (ne_true_of_eq_false (decide_eq_false h))]
    omega

theorem readExponent_written (layout : Double.Layout) (power : Int) {rest : List Char}
    (hr : Closed rest) :
    readExponent ('e' :: (if power < 0 then '-' else '+') :: (exponentDigits layout power ++ rest)) =
      (some power, rest) := by
  have hne : exponentDigits layout power ≠ [] := by
    simp [exponentDigits, Nat.toDigits_ne_nil]
  have h := readExponent_digits (decide (power < 0)) hne (fun _ hc => isDigit_exponentDigits hc)
    hr.not_digit
  rw [signed_exponentDigits] at h
  simpa using h

/-- The same for one laid out with an exponent. -/
theorem readNumber_exponentText (negative : Bool) {d : Char} {ds rest : List Char}
    (layout : Double.Layout) (power : Int) (h0 : d ≠ '0') (hd : ∀ c ∈ d :: ds, isDigit c = true)
    (hr : Closed rest) :
    readNumber negative (Double.exponentText layout (d :: ds) power ++ rest) =
      .ok (.float (Double.ofDecimal negative (value (d :: ds)) (power - ds.length)), rest) := by
  have hexp := readExponent_written layout power hr
  unfold Double.exponentText
  dsimp only
  change readNumber negative (_ ++ 'e' :: _ :: exponentDigits layout power ++ rest) = _
  generalize exponentDigits layout power = es at hexp ⊢
  cases ds with
  | nil =>
    -- a single digit is written without a point
    have hwhole : readWhole ([d] ++ 'e' :: (if power < 0 then '-' else '+') :: (es ++ rest)) =
        ([d], 'e' :: (if power < 0 then '-' else '+') :: (es ++ rest)) :=
      readWhole_digits h0 hd (by rintro _ _ ⟨⟩; rfl)
    have h := readNumber_double negative hwhole (readFraction_none (by rintro _ ⟨⟩)) hexp (by simp)
      (.inr rfl)
    simpa using h
  | cons d' ds' =>
    have hwhole : ∀ cs, readWhole ([d] ++ '.' :: cs) = ([d], '.' :: cs) := fun cs =>
      readWhole_digits h0 (by intro c hc; exact hd c (by simp at hc; simp [hc])) not_digit_of_point
    have h := readNumber_double negative (hwhole _)
      (readFraction_digits (by simp) (fun c hc => hd c (List.mem_cons_of_mem _ hc))
        (by rintro _ _ ⟨⟩; rfl)) hexp (by simp) (.inr rfl)
    simpa using h

/-! ## Scalars -/

/-- What begins with a digit is no word. -/
theorem find_words {d : Char} (ds : List Char) (hd : isDigit d = true) :
    (words.find? fun w => w.1.isPrefixOf (d :: ds)) = none
      ∧ (words.find? fun w => w.1.isPrefixOf ('-' :: d :: ds)) = none := by
  have hne : ∀ c, isDigit c = false → (c == d) = false := by
    intro c hc
    rw [beq_eq_false_iff_ne]
    rintro rfl
    rw [hd] at hc
    cases hc
  have hn := hne 'n' rfl
  have ht := hne 't' rfl
  have hf := hne 'f' rfl
  have hN := hne 'N' rfl
  have hI := hne 'I' rfl
  have hm := hne '-' rfl
  constructor <;> simp [words, List.isPrefixOf, hn, ht, hf, hN, hI, hm]

/-- A sign in front of digits is the sign of the number. -/
theorem readScalar_number {negative : Bool} {d : Char} {ds : List Char} (hd : isDigit d = true) :
    readScalar ((if negative then ['-'] else []) ++ d :: ds) = readNumber negative (d :: ds) := by
  obtain ⟨hplain, hminus⟩ := find_words ds hd
  cases negative with
  | true =>
    show readScalar ('-' :: d :: ds) = _
    unfold readScalar
    rw [hminus]
    rfl
  | false =>
    show readScalar (d :: ds) = _
    unfold readScalar
    rw [hplain]
    dsimp only
    split
    · rename_i he
      injection he with he _
      rw [he] at hd
      cases hd
    · rfl

theorem readWhole_toDigits {n : Nat} {rest : List Char} (hr : Closed rest) :
    readWhole (Nat.toDigits 10 n ++ rest) = (Nat.toDigits 10 n, rest) := by
  rcases Nat.eq_zero_or_pos n with rfl | hn
  · rfl
  · obtain ⟨d, ds, hds, h0⟩ := Text.Decimal.head_toDigits hn
    rw [hds]
    exact readWhole_digits h0 (fun c hc => Text.Decimal.isDigit_of_mem_toDigits (hds ▸ hc))
      hr.not_digit

/-- **A whole number is read back**, unless it is too long. -/
theorem readScalar_int {n : Int} (hn : (Nat.toDigits 10 n.natAbs).length ≤ Text.Decimal.longest)
    {rest : List Char} (hr : Closed rest) :
    readScalar ((toString n).toList ++ rest) = .ok (.int n, rest) := by
  obtain ⟨d, ds, hds⟩ := List.exists_cons_of_ne_nil (Nat.toDigits_ne_nil (b := 10) (n := n.natAbs))
  have hd : isDigit d = true := Text.Decimal.isDigit_of_mem_toDigits (hds ▸ List.mem_cons_self)
  have hwhole := readWhole_toDigits (n := n.natAbs) hr
  rw [Text.Decimal.toList_intToString, List.append_assoc, hds, List.cons_append, readScalar_number hd,
    readNumber_whole (hds ▸ hwhole) (by simp) (hds ▸ hn) hr, ← hds, Text.Decimal.value_toDigits]
  unfold Text.Decimal.signed
  by_cases h : n < 0
  · rw [if_pos (decide_eq_true h), show -(n.natAbs : Int) = n by omega]
  · rw [if_neg (ne_true_of_eq_false (decide_eq_false h)), show (n.natAbs : Int) = n by omega]

theorem plainText_cons {d : Char} (ds : List Char) (power : Int) (hd : isDigit d = true) :
    ∃ c cs, Double.plainText (d :: ds) power = c :: cs ∧ isDigit c = true := by
  unfold Double.plainText
  dsimp only
  split
  · exact ⟨_, _, rfl, rfl⟩
  split
  · exact ⟨_, _, rfl, hd⟩
  · exact ⟨_, _, rfl, hd⟩

theorem exponentText_cons (layout : Double.Layout) (d : Char) (ds : List Char) (power : Int) :
    ∃ cs, Double.exponentText layout (d :: ds) power = d :: cs := by
  cases ds <;> exact ⟨_, rfl⟩

theorem significant_append (cs : List Char) :
    ∃ k, cs = Double.significant cs ++ List.replicate k '0' := by
  refine ⟨(cs.reverse.takeWhile (· = '0')).length, ?_⟩
  have hz : cs.reverse.takeWhile (· = '0') =
      List.replicate (cs.reverse.takeWhile (· = '0')).length '0' :=
    List.eq_replicate_of_mem fun c hc => of_decide_eq_true (List.all_eq_true.1 List.all_takeWhile c hc)
  have h := congrArg List.reverse (List.takeWhile_append_dropWhile (p := (· = '0')) (l := cs.reverse))
  rw [List.reverse_append, List.reverse_reverse, hz, List.reverse_replicate] at h
  exact h.symm

/-- The digits that are shown begin with one that is not zero, and only zeros are left out. -/
theorem significant_toDigits {m : Nat} (hm : 0 < m) :
    ∃ d ds k, Double.significant (Nat.toDigits 10 m) = d :: ds ∧ d ≠ '0'
      ∧ Nat.toDigits 10 m = d :: ds ++ List.replicate k '0' := by
  obtain ⟨d, ds, hds, hd0⟩ := Text.Decimal.head_toDigits hm
  -- the first digit is kept, since the zeros that are left out stand at the end
  obtain ⟨k, hk⟩ := significant_append (Nat.toDigits 10 m)
  generalize Double.significant (Nat.toDigits 10 m) = shown at hk ⊢
  cases shown with
  | nil =>
    have hz : d ∈ List.replicate k '0' := by
      rw [List.nil_append] at hk
      rw [← hk, hds]
      exact List.mem_cons_self
    exact absurd (List.eq_of_mem_replicate hz) hd0
  | cons d' ds' =>
    have hd' : d = d' := by
      rw [hds] at hk
      exact (List.cons.inj hk).1
    exact ⟨d', ds', k, rfl, hd' ▸ hd0, hk⟩

/-- The digits that are shown of a finite double, and the power of the first, denote it. -/
theorem digits_of_finite {x : Double} (hx : x.Finite) (h0 : 0 < x.units) :
    ∃ d ds, Double.significant (Nat.toDigits 10 x.shortest.1) = d :: ds ∧ d ≠ '0'
      ∧ (∀ c ∈ d :: ds, isDigit c = true)
      ∧ Double.ofDecimal x.negative (value (d :: ds))
        (x.shortest.2 + (Nat.toDigits 10 x.shortest.1).length - 1 - ds.length) = x := by
  have hread := Double.ofDecimal_shortest hx h0
  generalize x.shortest = r at hread ⊢
  obtain ⟨m, e⟩ := r
  -- digits that denote nothing would read back as zero
  have hm : 0 < m := by
    refine Nat.pos_of_ne_zero ?_
    rintro rfl
    rw [Double.ofDecimal_zero] at hread
    rw [← hread, Double.units_zero] at h0
    exact absurd h0 (Nat.lt_irrefl 0)
  obtain ⟨d, ds, k, hshown, hd0, hk⟩ := significant_toDigits hm
  have hdigits : ∀ c ∈ d :: ds, isDigit c = true := by
    intro c hc
    refine Text.Decimal.isDigit_of_mem_toDigits (n := m) ?_
    rw [hk]
    exact List.mem_append_left _ hc
  refine ⟨d, ds, hshown, hd0, hdigits, ?_⟩
  have hv : value (d :: ds) * 10 ^ k = m := by
    rw [← value_append_zeros, ← hk, Text.Decimal.value_toDigits]
  have he : e + (Nat.toDigits 10 m).length - 1 - ds.length = e + k := by
    rw [hk]
    simp only [List.length_append, List.length_cons, List.length_replicate]
    omega
  rw [he, ← Double.ofDecimal_shift _ _ k, hv, Int.add_sub_cancel]
  exact hread

/-! ## Doubles -/

theorem toList_signText (negative : Bool) (cs rest : List Char) :
    ((if negative then "-" else "") ++ String.ofList cs).toList ++ rest =
      (if negative then ['-'] else []) ++ (cs ++ rest) := by
  rw [String.toList_append, String.toList_ofList, List.append_assoc]
  cases negative <;> rfl

theorem readScalar_zero {x : Double} (hx : x.isZero = true) {rest : List Char} (hr : Closed rest) :
    readScalar (((if x.negative then "-" else "") ++ String.ofList ['0', '.', '0']).toList ++ rest) =
      .ok (.float x, rest) := by
  have hwhole : readWhole ('0' :: '.' :: (['0'] ++ rest)) = (['0'], '.' :: (['0'] ++ rest)) := rfl
  have h := readNumber_point x.negative hwhole (by simp) (by simp) (by simp [isDigit]) hr
  rw [show value (['0'] ++ ['0']) = 0 from rfl, Double.ofDecimal_zero, ← Double.eq_zero hx] at h
  rw [toList_signText, List.cons_append, readScalar_number rfl]
  exact h

/-- The digits of a double are read back, in either layout. -/
theorem readScalar_digits {x : Double} (hx : x.Finite) (h0 : 0 < x.units) {power : Int}
    (hpower : x.shortest.2 + (Nat.toDigits 10 x.shortest.1).length - 1 = power) {shown : List Char}
    (hshown : shown = Double.plainText (Double.significant (Nat.toDigits 10 x.shortest.1)) power
      ∨ shown = Double.exponentText numberLayout
        (Double.significant (Nat.toDigits 10 x.shortest.1)) power)
    {rest : List Char} (hr : Closed rest) :
    readScalar (((if x.negative then "-" else "") ++ String.ofList shown).toList ++ rest) =
      .ok (.float x, rest) := by
  obtain ⟨d, ds, hds, hd0, hdigits, hread⟩ := digits_of_finite hx h0
  rw [hpower] at hread
  rw [hds] at hshown
  rw [toList_signText]
  rcases hshown with rfl | rfl
  · obtain ⟨c, cs, hcs, hc⟩ := plainText_cons ds power (hdigits d List.mem_cons_self)
    have h := readNumber_plainText x.negative power hd0 hdigits hr
    rw [hread] at h
    rw [hcs, List.cons_append, readScalar_number hc, ← List.cons_append, ← hcs, h]
  · obtain ⟨cs, hcs⟩ := exponentText_cons numberLayout d ds power
    have h := readNumber_exponentText x.negative numberLayout power hd0 hdigits hr
    rw [hread] at h
    rw [hcs, List.cons_append, readScalar_number (hdigits d List.mem_cons_self),
      ← List.cons_append, ← hcs, h]

/-- **A double is read back**, unless it is an unusual one that is no number. -/
theorem readScalar_double {x : Double} (hx : x.isNaN = true → x = .nan) {rest : List Char}
    (hr : Closed rest) :
    readScalar ((x.render numberLayout).toList ++ rest) = .ok (.float x, rest) := by
  by_cases hnan : x.isNaN = true
  · rw [hx hnan]
    rfl
  by_cases hinf : x.isInfinite = true
  · rw [Double.eq_infinity hinf]
    cases x.negative <;> rfl
  unfold Double.render
  rw [if_neg hnan, if_neg hinf]
  by_cases hzero : x.isZero = true
  · rw [if_pos hzero]
    exact readScalar_zero hzero hr
  · have hfin : x.Finite := Double.finite_iff.2 ⟨hnan, hinf⟩
    have hunits : 0 < x.units := Double.units_pos (by simpa [Double.isZero] using hzero)
    rw [if_neg hzero]
    refine readScalar_digits hfin hunits rfl ?_ hr
    exact (Decidable.em _).imp (fun h => if_pos h) fun h => if_neg h

end Changefeed.Json
