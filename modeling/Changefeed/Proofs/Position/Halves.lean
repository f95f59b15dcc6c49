import Mathlib.Algebra.Group.Int.Defs
import Mathlib.Data.List.Basic
import Changefeed.Proofs.Position.Spelling

/-!
# Positions and their halves

A position is composed of a file and an offset, each a number of 32 bits, and taken
apart into them again. Both checks of composing count: a half of 33 bits is refused as
a half, and a file of the full 32 bits as part of a sequence that no signed word holds.
So the halves that make a position are a file of 31 bits and an offset of 32
(`ofHalves_of_fits`, `ofHalves_of_not_fits`), and each position in the log is made of
its own halves and no others (`ofHalves_halves`). The long text shows both halves, and
so no two positions have it in common (`longText_inj`).

A refusal shows the number that is refused. One with too many digits to be written is
refused for that instead, and no longer as badly formed.
-/

namespace Changefeed

namespace Position

variable {p q : Position}

/-! ## Taking apart and composing -/

/-- A file and an offset make a position: the file is of 31 bits, the offset of 32. -/
def Fits (u o : Int) : Prop := 0 ≤ u ∧ u < 2 ^ 31 ∧ 0 ≤ o ∧ o < 2 ^ 32

instance (u o : Int) : Decidable (Fits u o) := inferInstanceAs (Decidable (_ ∧ _ ∧ _ ∧ _))

theorem halfLimit_eq : (halfLimit : Int) = 2 ^ 32 := rfl

theorem sequenceLimit_eq : (sequenceLimit : Int) = 2 ^ 63 := rfl

/-- A sequence is composed of its halves. -/
theorem halves_sequence (p : Position) : p.file * halfLimit + p.offset = p.sequence :=
  Int.ediv_mul_add_emod p.sequence halfLimit

theorem offset_bounds (p : Position) : 0 ≤ p.offset ∧ p.offset < 2 ^ 32 := by
  unfold offset
  rw [halfLimit_eq]
  omega

theorem file_bounds (n : Sequence) : 0 ≤ (known n).file ∧ (known n).file < 2 ^ 31 := by
  have hn : n.val < 2 ^ 63 := n.isLt
  show 0 ≤ (n.val : Int) / halfLimit ∧ (n.val : Int) / halfLimit < 2 ^ 31
  rw [halfLimit_eq]
  omega

/-- The halves of a position fit. -/
theorem fits_halves (n : Sequence) : Fits (known n).file (known n).offset :=
  ⟨(file_bounds n).1, (file_bounds n).2, offset_bounds _⟩

theorem half_of_lt (h : Half) {n : Int} (hlow : 0 ≤ n) (hhigh : n < 2 ^ 32) :
    half h (.int n) = .ok n := by
  have hin : ¬(n < 0 ∨ (halfLimit : Int) ≤ n) := by
    rw [halfLimit_eq]
    omega
  exact if_neg hin

theorem half_of_not_lt (h : Half) {n : Int} (hn : ¬(0 ≤ n ∧ n < 2 ^ 32)) :
    half h (.int n) = .error (.showing (.int n) (.format (.halfOutOfRange h n))) := by
  have hout : n < 0 ∨ (halfLimit : Int) ≤ n := by
    rw [halfLimit_eq]
    omega
  exact if_pos hout

/-- Halves that have 32 bits each are put together. -/
theorem ofHalves_eq_ofInt {u o : Int} (hu : 0 ≤ u ∧ u < 2 ^ 32) (ho : 0 ≤ o ∧ o < 2 ^ 32) :
    ofHalves (.int u) (.int o) = ofInt (u * halfLimit + o) := by
  unfold ofHalves
  rw [half_of_lt .file hu.1 hu.2, half_of_lt .offset ho.1 ho.2]
  rfl

/-- **A file and an offset that fit make a position, which has just these halves.** -/
theorem ofHalves_of_fits {u o : Int} (h : Fits u o) :
    ∃ n, ofHalves (.int u) (.int o) = .ok (known n) ∧ (known n).file = u
      ∧ (known n).offset = o := by
  obtain ⟨hu, hu', ho, ho'⟩ := h
  have hlow : 0 ≤ u * halfLimit + o := by
    rw [halfLimit_eq]
    omega
  have hhigh : u * halfLimit + o < sequenceLimit := by
    rw [halfLimit_eq, sequenceLimit_eq]
    omega
  refine ⟨⟨(u * halfLimit + o).toNat, by omega⟩, ?_, ?_, ?_⟩
  · rw [ofHalves_eq_ofInt ⟨hu, by omega⟩ ⟨ho, ho'⟩]
    unfold ofInt
    rw [if_neg (by omega), dif_pos ⟨hlow, hhigh⟩]
  · show ((u * halfLimit + o).toNat : Int) / halfLimit = u
    rw [Int.toNat_of_nonneg hlow, halfLimit_eq]
    omega
  · show ((u * halfLimit + o).toNat : Int) % halfLimit = o
    rw [Int.toNat_of_nonneg hlow, halfLimit_eq]
    omega

/-- The first of a file and an offset that 32 bits do not hold. -/
def firstWide? (u o : Int) : Option Int :=
  if ¬(0 ≤ u ∧ u < 2 ^ 32) then some u else if ¬(0 ≤ o ∧ o < 2 ^ 32) then some o else none

theorem ofHalves_of_firstWide? {u o n : Int} (h : firstWide? u o = some n) :
    ∃ cause, ofHalves (.int u) (.int o) = .error (.showing (.int n) (.format cause)) := by
  unfold firstWide? at h
  split at h
  · rename_i hu
    cases h
    refine ⟨.halfOutOfRange .file u, ?_⟩
    unfold ofHalves
    rw [half_of_not_lt .file hu]
    rfl
  · rename_i hu
    split at h
    · rename_i ho
      cases h
      have hu' := Decidable.not_not.1 hu
      refine ⟨.halfOutOfRange .offset o, ?_⟩
      unfold ofHalves
      rw [half_of_lt .file hu'.1 hu'.2, half_of_not_lt .offset ho]
      rfl
    · cases h

/-- The upper bit of the file is where the sign would be. -/
theorem ofHalves_of_firstWide?_none {u o : Int} (hnot : ¬Fits u o) (h : firstWide? u o = none) :
    ∃ cause, ofHalves (.int u) (.int o) = .error (.format cause) := by
  have hhalves : (0 ≤ u ∧ u < 2 ^ 32) ∧ (0 ≤ o ∧ o < 2 ^ 32) := by
    unfold firstWide? at h
    split at h
    · cases h
    · split at h
      · cases h
      · rename_i hu ho
        exact ⟨Decidable.not_not.1 hu, Decidable.not_not.1 ho⟩
  obtain ⟨hu, ho⟩ := hhalves
  have hout : (sequenceLimit : Int) ≤ u * halfLimit + o := by
    rw [halfLimit_eq, sequenceLimit_eq]
    unfold Fits at hnot
    omega
  have hsmall : u * halfLimit + o < 2 ^ 64 := by
    rw [halfLimit_eq]
    omega
  have hwritable : (Data.int (u * halfLimit + o) : Value).isWritable = true := by
    refine Text.Decimal.isShort_of_lt ?_
    have hlimit : (0 : Int) ≤ sequenceLimit := by decide
    omega
  refine ⟨.outOfRange (u * halfLimit + o), ?_⟩
  rw [ofHalves_eq_ofInt hu ho]
  unfold ofInt
  rw [if_pos (.inr hout), Fault.showing_of_writable hwritable]

/-- **Any others are refused**, as badly formed if what is wrong with them can be written. -/
theorem ofHalves_of_not_fits {u o : Int} (hnot : ¬Fits u o)
    (hshort : ∀ n ∈ firstWide? u o, n.natAbs < 10 ^ Text.Decimal.longest) :
    ∃ cause, ofHalves (.int u) (.int o) = .error (.format cause) := by
  cases hwide : firstWide? u o with
  | none => exact ofHalves_of_firstWide?_none hnot hwide
  | some n =>
    have hwritable : (Data.int n : Value).isWritable = true :=
      Text.Decimal.isShort_iff.2 (hshort n hwide)
    obtain ⟨cause, hrun⟩ := ofHalves_of_firstWide? hwide
    exact ⟨cause, hrun.trans (congrArg _ (Fault.showing_of_writable hwritable _))⟩

/-- A half with too many digits is refused for them. -/
theorem ofHalves_of_long {u o n : Int} (hwide : firstWide? u o = some n)
    (hlong : 10 ^ Text.Decimal.longest ≤ n.natAbs) :
    ofHalves (.int u) (.int o) = .error (.argument .longNumber) := by
  have hwritable : (Data.int n : Value).isWritable = false :=
    Text.Decimal.isShort_eq_false_iff.2 hlong
  obtain ⟨cause, hrun⟩ := ofHalves_of_firstWide? hwide
  exact hrun.trans (congrArg _ (Fault.showing_of_not_writable hwritable _))

/-- Whatever is refused makes no position. -/
theorem ofHalves_ne_ok {u o : Int} (hnot : ¬Fits u o) (p : Position) :
    ofHalves (.int u) (.int o) ≠ .ok p := by
  intro hp
  by_cases hlong : ∃ n, firstWide? u o = some n ∧ 10 ^ Text.Decimal.longest ≤ n.natAbs
  · obtain ⟨n, hwide, hn⟩ := hlong
    rw [ofHalves_of_long hwide hn] at hp
    cases hp
  · obtain ⟨cause, hrun⟩ := ofHalves_of_not_fits hnot fun n hn =>
      Nat.lt_of_not_le fun h => hlong ⟨n, hn, h⟩
    rw [hrun] at hp
    cases hp

theorem eq_of_halves (hfile : p.file = q.file) (hoffset : p.offset = q.offset) : p = q := by
  rw [← sequence_inj, ← halves_sequence p, ← halves_sequence q, hfile, hoffset]

/-- A position is made of its halves. -/
theorem ofHalves_halves (n : Sequence) :
    ofHalves (.int (known n).file) (.int (known n).offset) = .ok (known n) := by
  obtain ⟨m, hmade, hfile, hoffset⟩ := ofHalves_of_fits (fits_halves n)
  rw [hmade, eq_of_halves hfile hoffset]

/-! ## The bits -/

/-- The halves are the bits of the sequence from the 32nd on, and those below. -/
theorem halves_bits (n : Sequence) :
    (known n).file = (n.val >>> 32 : Nat) ∧ (known n).offset = (n.val &&& (2 ^ 32 - 1) : Nat) := by
  rw [Nat.shiftRight_eq_div_pow, Nat.and_two_pow_sub_one_eq_mod]
  exact ⟨rfl, rfl⟩

/-! ## The long text -/

/-- The file, a comma and the offset, between what all long texts begin and end with. -/
theorem toList_longText (p : Position) :
    p.longText.toList = "LSN(".toList ++ ((toString p.file).toList
      ++ ',' :: (Nat.toDigits 16 p.offset.toNat ++ [')'])) := by
  have htext : p.longText = "LSN(" ++ toString p.file ++ "," ++
      String.ofList (Nat.toDigits 16 p.offset.toNat) ++ ")" := rfl
  rw [htext]
  simp only [String.toList_append, String.toList_ofList, List.append_assoc]
  rfl

theorem comma_not_mem_intToString (n : Int) : ',' ∉ (toString n).toList := by
  intro h
  rcases Text.Decimal.mem_intToString h with h | h <;> exact absurd h (by decide)

/-- A text is parted at its first comma in one way. -/
theorem parted_at_comma {xs xs' rest rest' : List Char} (hx : ',' ∉ xs) (hx' : ',' ∉ xs')
    (h : xs ++ ',' :: rest = xs' ++ ',' :: rest') : xs = xs' ∧ rest = rest' := by
  have hbefore : ∀ {ys : List Char}, ',' ∉ ys → ∀ zs, (ys ++ ',' :: zs).takeWhile (· ≠ ',') = ys := by
    intro ys hys zs
    rw [List.takeWhile_append_of_pos, List.takeWhile_cons_of_neg (by simp), List.append_nil]
    intro c hc
    exact decide_eq_true (ne_of_mem_of_not_mem hc hys)
  have hfront := hbefore hx rest
  rw [h, hbefore hx' rest'] at hfront
  subst hfront
  exact ⟨rfl, (List.cons.inj (List.append_cancel_left h)).2⟩

/-- No two positions have their long text in common. -/
theorem longText_inj : p.longText = q.longText ↔ p = q := by
  refine ⟨fun h => ?_, congrArg longText⟩
  rw [← String.toList_inj, toList_longText, toList_longText, List.append_cancel_left_eq] at h
  -- the comma that is shown in both is the first one
  obtain ⟨hfile, hrest⟩ := parted_at_comma (comma_not_mem_intToString p.file)
    (comma_not_mem_intToString q.file) h
  have hdigits := (Text.Decimal.toDigits_inj (by omega) (by omega)).1 (List.append_cancel_right hrest)
  have hp := (offset_bounds p).1
  have hq := (offset_bounds q).1
  exact eq_of_halves (Text.Decimal.intToString_inj.1 (String.toList_inj.1 hfile)) (by omega)

/-! ## Halves and positions -/

/--
**Composing and taking apart undo each other.** A file and an offset make a position exactly if
the file is of 31 bits and the offset of 32. They are refused as badly formed if not, unless the
first of them that 32 bits do not hold has too many digits to be written, and then for that. What
they make is a known position, which has them as its halves; and each known position is made of its
own halves, and has a long text of its own.
-/
theorem halves_inverse (u o : Int) :
    ((∃ p, ofHalves (.int u) (.int o) = .ok p) ↔ 0 ≤ u ∧ u < 2 ^ 31 ∧ 0 ≤ o ∧ o < 2 ^ 32)
    ∧ (¬(0 ≤ u ∧ u < 2 ^ 31 ∧ 0 ≤ o ∧ o < 2 ^ 32) →
      (∀ n ∈ firstWide? u o, n.natAbs < 10 ^ Text.Decimal.longest) →
      ∃ cause, ofHalves (.int u) (.int o) = .error (.format cause))
    ∧ (∀ n ∈ firstWide? u o, 10 ^ Text.Decimal.longest ≤ n.natAbs →
      ofHalves (.int u) (.int o) = .error (.argument .longNumber))
    ∧ (∀ p, ofHalves (.int u) (.int o) = .ok p → p.isKnown = true ∧ p.file = u ∧ p.offset = o)
    ∧ (∀ p : Position, p.isKnown = true → ofHalves (.int p.file) (.int p.offset) = .ok p)
    ∧ (∀ p q : Position, p.isKnown = true → q.isKnown = true →
      (p.longText = q.longText ↔ p = q)) := by
  refine ⟨?_, ofHalves_of_not_fits, fun n => ofHalves_of_long, ?_, ?_, fun _ _ _ _ => longText_inj⟩
  · constructor
    · rintro ⟨p, hp⟩
      by_contra hnot
      exact ofHalves_ne_ok hnot p hp
    · intro hfits
      obtain ⟨n, hn, _⟩ := ofHalves_of_fits hfits
      exact ⟨known n, hn⟩
  · intro p hp
    by_cases hfits : Fits u o
    · obtain ⟨n, hn, hfile, hoffset⟩ := ofHalves_of_fits hfits
      rw [hp] at hn
      cases hn
      exact ⟨rfl, hfile, hoffset⟩
    · exact absurd hp (ofHalves_ne_ok hfits p)
  · intro p hp
    cases p with
    | null => cases hp
    | known n => exact ofHalves_halves n

/-- The last position is made of a file of 31 bits and an offset of 32, all of them set, and the
file after it is refused. -/
theorem halves_inverse_at_end :
    (∃ p, ofHalves (.int (2 ^ 31 - 1)) (.int (2 ^ 32 - 1)) = .ok p ∧ p.isKnown = true
      ∧ p.file = 2 ^ 31 - 1 ∧ p.offset = 2 ^ 32 - 1)
    ∧ ∃ cause, ofHalves (.int (2 ^ 31)) (.int 0) = .error (.format cause) := by
  obtain ⟨hmakes, _, _, hhalves, _, _⟩ := halves_inverse (2 ^ 31 - 1) (2 ^ 32 - 1)
  obtain ⟨p, hp⟩ := hmakes.2 (by decide)
  have hnone : firstWide? (2 ^ 31) 0 = none := rfl
  refine ⟨⟨p, hp, hhalves p hp⟩, (halves_inverse (2 ^ 31) 0).2.1 (by decide) fun n hn => ?_⟩
  cases hnone.symm.trans hn

/-- **A fault of others.** No file has a number with so many digits, but it is not refused as badly
formed. -/
theorem long_half_not_format :
    2 ^ 31 ≤ Text.Decimal.longNumber
    ∧ ofHalves (.int Text.Decimal.longNumber) (.int 0) = .error (.argument .longNumber)
    ∧ ∀ cause, ofHalves (.int Text.Decimal.longNumber) (.int 0) ≠ .error (.format cause) := by
  have hbeyond : 2 ^ 32 < Text.Decimal.longNumber := by
    have hlong := Text.Decimal.le_pow_longest
    unfold Text.Decimal.longNumber
    omega
  have hwide : firstWide? Text.Decimal.longNumber 0 = some Text.Decimal.longNumber := by
    unfold firstWide?
    rw [if_pos (by omega)]
  have hrun := ofHalves_of_long hwide (Nat.le_of_eq Text.Decimal.natAbs_longNumber.symm)
  refine ⟨by omega, hrun, fun cause h => ?_⟩
  cases hrun.symm.trans h

end Position

end Changefeed
