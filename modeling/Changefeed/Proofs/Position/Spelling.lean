import Changefeed.Proofs.Text.Decimal

/-!
# What denotes a position

A document denotes a position if it is a whole number, or a text that is a numeral
or the word for the null position, blanks around it aside: a number that fits a
signed 64-bit word is the position there, or the null position if it is below
zero (`Denotes`). Nothing in that is about the length of a numeral. Reading one
is: a text with more digits than can be read (`Overlong`) ends in a fault of its
own, whatever it denotes, and everything else is read as the position that it
denotes or refused as denoting none (`ofJson_cases`).
-/

namespace Changefeed.Text.Decimal

/-! ## Numerals -/

/-- A numeral: one or more digits, behind a sign if it has one (`true` for minus). -/
inductive IsNumeral : List Char → Bool → List Char → Prop
  | plain {ds : List Char} : ds ≠ [] → (∀ c ∈ ds, isDigit c = true) → IsNumeral ds false ds
  | plus {ds : List Char} : ds ≠ [] → (∀ c ∈ ds, isDigit c = true) → IsNumeral ('+' :: ds) false ds
  | minus {ds : List Char} : ds ≠ [] → (∀ c ∈ ds, isDigit c = true) → IsNumeral ('-' :: ds) true ds

variable {cs ds : List Char} {negative : Bool}

theorem IsNumeral.splitSign (h : IsNumeral cs negative ds) : splitSign cs = (negative, ds) := by
  cases h with
  | plus _ _ => rfl
  | minus _ _ => rfl
  | plain hne hd =>
    obtain ⟨c, rest, rfl⟩ := List.exists_cons_of_ne_nil hne
    exact splitSign_of_digit (hd c List.mem_cons_self)

theorem IsNumeral.digits (h : IsNumeral cs negative ds) : ds ≠ [] ∧ ∀ c ∈ ds, isDigit c = true := by
  cases h with
  | plain hne hd => exact ⟨hne, hd⟩
  | plus hne hd => exact ⟨hne, hd⟩
  | minus hne hd => exact ⟨hne, hd⟩

theorem IsNumeral.sublist (h : IsNumeral cs negative ds) : ds.Sublist cs := by
  cases h with
  | plain _ _ => exact .refl _
  | plus _ _ => exact .cons _ (.refl _)
  | minus _ _ => exact .cons _ (.refl _)

theorem isNumeral_of_splitSign (h : splitSign cs = (negative, ds)) (hne : ds ≠ [])
    (hd : ∀ c ∈ ds, isDigit c = true) : IsNumeral cs negative ds := by
  unfold splitSign at h
  split at h <;> cases h
  · exact .minus hne hd
  · exact .plus hne hd
  · exact .plain hne hd

/-- A numeral is one in a single way. -/
theorem IsNumeral.unique {negative' : Bool} {ds' : List Char} (h : IsNumeral cs negative ds)
    (h' : IsNumeral cs negative' ds') : negative' = negative ∧ ds' = ds :=
  Prod.mk.inj (h'.splitSign.symm.trans h.splitSign)

/-- **Reading a numeral** gives its number, unless it has too many digits. -/
theorem IsNumeral.read (h : IsNumeral cs negative ds) : read cs =
    if longest < ds.length then .tooLong ds.length else .number (signed negative (value ds)) := by
  obtain ⟨hne, hd⟩ := h.digits
  unfold Decimal.read
  rw [h.splitSign]
  dsimp only
  rw [if_neg]
  simpa using ⟨hne, hd⟩

/-- What is no numeral is not read as one. -/
theorem read_of_not_isNumeral (h : ∀ negative ds, ¬IsNumeral cs negative ds) : read cs = .none := by
  unfold Decimal.read
  dsimp only
  rw [if_pos]
  -- with one or more digits behind the sign it would be a numeral
  have hnot := h (splitSign cs).1 (splitSign cs).2
  cases hempty : (splitSign cs).2.isEmpty with
  | true => rfl
  | false =>
    have hne : (splitSign cs).2 ≠ [] := by simpa using hempty
    cases hall : (splitSign cs).2.all isDigit with
    | false => rfl
    | true => exact absurd (isNumeral_of_splitSign rfl hne (List.all_eq_true.1 hall)) hnot

end Changefeed.Text.Decimal

namespace Changefeed

open Text.Decimal (IsNumeral)

/-! ## Numbers -/

/-- The position at a whole number, if it fits a signed 64-bit word. -/
inductive Position.At : Int → Position → Prop
  | known (n : Sequence) : At n.val (.known n)
  | null {n : Int} : -sequenceLimit ≤ n → n < 0 → At n .null

theorem Position.At.ofInt {n : Int} {p : Position} (h : At n p) : ofInt n = .ok p := by
  cases h with
  | known n => exact ofInt_natCast n
  | null hlow hneg =>
    unfold Position.ofInt
    rw [if_neg (by omega), dif_neg (by omega)]

/-- **Reading a number** gives the position there, or says that it is out of range. -/
theorem Position.ofInt_cases (n : Int) : (∃ p, At n p ∧ ofInt n = .ok p)
    ∨ (∀ p, ¬At n p) ∧ ofInt n = .error (.showing (.int n) (.format (.outOfRange n))) := by
  by_cases hrange : n < -sequenceLimit ∨ sequenceLimit ≤ n
  · refine .inr ⟨?_, ?_⟩
    · intro p h
      cases h with
      | known m => have := m.isLt; omega
      | null hlow hneg => have : 0 < sequenceLimit := by decide
                          omega
    · unfold Position.ofInt
      rw [if_pos hrange]
  · left
    by_cases hneg : n < 0
    · have hnull : At n null := .null (by omega) hneg
      exact ⟨_, hnull, hnull.ofInt⟩
    · obtain ⟨m, rfl⟩ : ∃ m : Nat, n = m := ⟨n.toNat, by omega⟩
      exact ⟨_, .known ⟨m, by omega⟩, ofInt_natCast ⟨m, by omega⟩⟩

theorem Position.ofInt_eq_ok_iff {n : Int} {p : Position} : ofInt n = .ok p ↔ At n p := by
  refine ⟨?_, At.ofInt⟩
  intro hmade
  rcases ofInt_cases n with ⟨q, hat, hq⟩ | ⟨_, herror⟩
  · rw [hmade] at hq
    cases hq
    exact hat
  · rw [hmade] at herror
    cases herror

/-! ## Documents -/

namespace Json

/-- A document that denotes a position. -/
inductive Denotes : Json → Position → Prop
  | number {n : Int} {p : Position} : Position.At n p → Denotes (.int n) p
  | word {t : Text} {s : String} : t = s → Text.uppered (Text.trim s) = "NULL" →
      Denotes (.text t) .null
  | numeral {t : Text} {s : String} {negative : Bool} {ds : List Char} {p : Position} : t = s →
      IsNumeral (Text.trim s).toList negative ds →
      Position.At (Text.Decimal.signed negative (Text.Decimal.value ds)) p → Denotes (.text t) p

/-- A text that is a numeral of so many digits, which is too many. -/
inductive Overlong : Json → Nat → Prop
  | numeral {t : Text} {s : String} {negative : Bool} {ds : List Char} : t = s →
      IsNumeral (Text.trim s).toList negative ds → Text.Decimal.longest < ds.length →
      Overlong (.text t) ds.length

variable {j : Json} {p q : Position} {s : String} {t : Text}

/-- No numeral is the word for the null position. -/
theorem uppered_ne_of_isNumeral {negative : Bool} {ds : List Char}
    (h : IsNumeral s.toList negative ds) : Text.uppered s ≠ "NULL" := by
  intro hnull
  obtain ⟨hne, hd⟩ := h.digits
  obtain ⟨c, rest, rfl⟩ := List.exists_cons_of_ne_nil hne
  have hdigit := hd c List.mem_cons_self
  -- the first of its digits would be one of the letters
  have hletters : s.toList.map Text.upper = ['N', 'U', 'L', 'L'] := by
    have hlist := congrArg String.toList hnull
    rwa [Text.uppered, String.toList_ofList] at hlist
  have hletter : c ∈ ['N', 'U', 'L', 'L'] := by
    rw [← hletters]
    exact List.mem_map.2 ⟨c, h.sublist.subset List.mem_cons_self, Text.upper_of_digit hdigit⟩
  simp only [List.mem_cons, List.not_mem_nil, or_false] at hletter
  rcases hletter with rfl | rfl | rfl | rfl <;> cases hdigit

/-- A text in which a surrogate stands alone denotes no position, and is no numeral. -/
theorem not_denotes_of_plain? (h : t.plain? = none) :
    (∀ p, ¬Denotes (.text t) p) ∧ ∀ k, ¬Overlong (.text t) k := by
  have hnot : ∀ s : String, t ≠ s := by
    rintro s rfl
    rw [Text.plain?_ofString] at h
    cases h
  refine ⟨fun p hp => ?_, fun k hk => ?_⟩
  · cases hp with
    | word hs _ => exact hnot _ hs
    | numeral hs _ _ => exact hnot _ hs
  · cases hk with
    | numeral hs _ _ => exact hnot _ hs

/-- Reading a string of characters. -/
theorem ofString_cases (s : String) :
    (∃ p, Denotes (.text s) p ∧ (∀ k, ¬Overlong (.text s) k) ∧ Position.ofText s = .ok p)
      ∨ (∃ cause, (∀ p, ¬Denotes (.text s) p) ∧ (∀ k, ¬Overlong (.text s) k)
        ∧ Position.ofText s = .error (.format cause))
      ∨ ∃ k, Overlong (.text s) k ∧ Position.ofText s = .error (.argument (.longNumeral k)) := by
  rw [Position.ofText_ofString]
  unfold Position.ofTextIn
  dsimp only
  by_cases hnull : Text.uppered (Text.trim s) = "NULL"
  · refine .inl ⟨.null, .word rfl hnull, ?_, if_pos hnull⟩
    rintro k ⟨hs, hnum, _⟩
    obtain rfl := Text.ofString_inj.1 hs
    exact uppered_ne_of_isNumeral hnum hnull
  rw [if_neg hnull]
  by_cases hnumeral : ∃ negative ds, IsNumeral (Text.trim s).toList negative ds
  · obtain ⟨negative, ds, hnum⟩ := hnumeral
    rw [hnum.read]
    by_cases hlong : Text.Decimal.longest < ds.length
    · exact .inr (.inr ⟨_, .numeral rfl hnum hlong, by rw [if_pos hlong]⟩)
    have hshort : ∀ k, ¬Overlong (.text s) k := by
      rintro k ⟨hs, hnum', hlong'⟩
      obtain rfl := Text.ofString_inj.1 hs
      exact hlong ((hnum.unique hnum').2 ▸ hlong')
    rw [if_neg hlong]
    rcases Position.ofInt_cases (Text.Decimal.signed negative (Text.Decimal.value ds)) with
      ⟨p, hat, hrun⟩ | ⟨hout, hrun⟩
    · exact .inl ⟨p, .numeral rfl hnum hat, hshort, hrun⟩
    · have hwritable : (Data.int (Text.Decimal.signed negative (Text.Decimal.value ds)) :
          Value).isWritable = true :=
        Text.Decimal.isShort_signed negative hnum.digits.2 (Nat.not_lt.1 hlong)
      rw [Fault.showing_of_writable hwritable] at hrun
      refine .inr (.inl ⟨_, ?_, hshort, hrun⟩)
      intro p hp
      cases hp with
      | word hs h => exact hnull (Text.ofString_inj.1 hs ▸ h)
      | numeral hs hnum' hat =>
        obtain rfl := Text.ofString_inj.1 hs
        obtain ⟨rfl, rfl⟩ := hnum.unique hnum'
        exact hout p hat
  · have hnot : ∀ negative ds, ¬IsNumeral (Text.trim s).toList negative ds :=
      fun negative ds h => hnumeral ⟨negative, ds, h⟩
    rw [Text.Decimal.read_of_not_isNumeral hnot]
    refine .inr (.inl ⟨_, ?_, ?_, rfl⟩)
    · intro p hp
      cases hp with
      | word hs h => exact hnull (Text.ofString_inj.1 hs ▸ h)
      | numeral hs hnum _ => exact hnot _ _ (Text.ofString_inj.1 hs ▸ hnum)
    · rintro k ⟨hs, hnum, _⟩
      exact hnot _ _ (Text.ofString_inj.1 hs ▸ hnum)

/-- **Reading a text** gives the position that it denotes or says that it denotes none, unless it is
a numeral with too many digits, which is a fault whatever it denotes. -/
theorem ofText_cases (t : Text) :
    (∃ p, Denotes (.text t) p ∧ (∀ k, ¬Overlong (.text t) k) ∧ Position.ofText t = .ok p)
      ∨ (∃ cause, (∀ p, ¬Denotes (.text t) p) ∧ (∀ k, ¬Overlong (.text t) k)
        ∧ Position.ofText t = .error (.format cause))
      ∨ ∃ k, Overlong (.text t) k ∧ Position.ofText t = .error (.argument (.longNumeral k)) := by
  cases hplain : t.plain? with
  | none =>
    obtain ⟨hnone, hshort⟩ := not_denotes_of_plain? hplain
    refine .inr (.inl ⟨.badText (.text t), hnone, hshort, ?_⟩)
    unfold Position.ofText
    rw [hplain]
  | some s =>
    obtain rfl := Text.plain?_eq_some_iff.1 hplain
    exact ofString_cases s

/-- **Reading a document** that is there gives the position that it denotes or says that it denotes
none, unless it is a text with too many digits. The document holds no number that is too long to be
written. -/
theorem ofJson_cases (hj : j ≠ .null) (hw : j.isWritable = true) :
    (∃ p, j.Denotes p ∧ (∀ k, ¬j.Overlong k) ∧ Position.ofJson j = .ok p)
      ∨ (∃ cause, (∀ p, ¬j.Denotes p) ∧ (∀ k, ¬j.Overlong k)
        ∧ Position.ofJson j = .error (.format cause))
      ∨ ∃ k, j.Overlong k ∧ Position.ofJson j = .error (.argument (.longNumeral k)) := by
  have hshown : ∀ cause, Fault.showing (Data.ofJson j) (.format cause) = .format cause :=
    fun cause => Fault.showing_of_writable (Data.isWritable_ofJson j ▸ hw) _
  cases j with
  | null => exact absurd rfl hj
  | text t => exact ofText_cases t
  | int n =>
    rcases Position.ofInt_cases n with ⟨p, hat, hrun⟩ | ⟨hout, hrun⟩
    · exact .inl ⟨p, .number hat, nofun, hrun⟩
    · refine .inr (.inl ⟨_, ?_, nofun, hrun.trans (congrArg _ (hshown _))⟩)
      rintro p ⟨hat⟩
      exact hout p hat
  | mark m => exact nomatch m
  | bool b => exact .inr (.inl ⟨_, nofun, nofun, congrArg _ (hshown _)⟩)
  | float x => exact .inr (.inl ⟨_, nofun, nofun, congrArg _ (hshown _)⟩)
  | list items => exact .inr (.inl ⟨_, nofun, nofun, congrArg _ (hshown _)⟩)
  | record fields => exact .inr (.inl ⟨_, nofun, nofun, congrArg _ (hshown _)⟩)

/-- A text that has not more digits than a numeral may have is not too long. -/
theorem not_overlong_of_countP_le (h : s.toList.countP Text.Decimal.isDigit ≤ Text.Decimal.longest)
    (k : Nat) : ¬Overlong (.text s) k := by
  rintro ⟨hs, hnum, hlong⟩
  obtain rfl := Text.ofString_inj.1 hs
  rw [Text.toList_trim] at hnum
  -- the digits of the numeral are among those of the text
  have hcount := (hnum.sublist.trans (Text.padded_trimChars s.toList).sublist).countP_le
    (p := Text.Decimal.isDigit)
  rw [List.countP_eq_length.2 hnum.digits.2] at hcount
  omega

/-- A text that is not longer than a numeral may be has not too many digits. -/
theorem not_overlong_of_length_le (h : s.toList.length ≤ Text.Decimal.longest) (k : Nat) :
    ¬Overlong (.text s) k :=
  not_overlong_of_countP_le (Nat.le_trans List.countP_le_length h) k

/-- A text of nothing but digits, and too many of them. -/
theorem Overlong.of_digits {ds : List Char} (hd : ∀ c ∈ ds, Text.Decimal.isDigit c = true)
    (hlong : Text.Decimal.longest < ds.length) :
    Overlong (.text (String.ofList ds)) ds.length := by
  have htrim : (Text.trim (String.ofList ds)).toList = ds := by
    rw [Text.toList_trim, String.toList_ofList]
    exact (Text.Bare.of_no_blank fun c hc => Text.isBlank_of_digit (hd c hc)).trimChars
  have hnum : IsNumeral (Text.trim (String.ofList ds)).toList false ds := by
    rw [htrim]
    exact .plain (List.ne_nil_of_length_pos (Nat.zero_lt_of_lt hlong)) hd
  exact .numeral rfl hnum hlong

/-- A numeral with a digit too many. -/
def longText : String := String.ofList (List.replicate 4301 '9')

theorem overlong_longText : Overlong (.text longText) 4301 := by
  have hdigits : ∀ c ∈ List.replicate 4301 '9', Text.Decimal.isDigit c = true := fun c hc => by
    rw [List.eq_of_mem_replicate hc]
    rfl
  have hlong := Overlong.of_digits hdigits
  rw [List.length_replicate] at hlong
  exact hlong (by decide)

theorem Overlong.unique {k k' : Nat} (h : j.Overlong k) (h' : j.Overlong k') : k' = k := by
  cases h with
  | numeral hs hnum _ =>
    cases h' with
    | numeral hs' hnum' _ =>
      obtain rfl := Text.ofString_inj.1 (hs.symm.trans hs')
      rw [(hnum.unique hnum').2]

/-- A text with too many digits is not read, whatever it denotes. -/
theorem Overlong.ofJson {k : Nat} (h : j.Overlong k) :
    Position.ofJson j = .error (.argument (.longNumeral k)) := by
  obtain ⟨t, rfl⟩ : ∃ t, j = .text t := by
    cases h
    exact ⟨_, rfl⟩
  show Position.ofText t = _
  rcases ofText_cases t with ⟨_, _, hshort, _⟩ | ⟨_, _, hshort, _⟩ | ⟨k', hlong, hrun⟩
  · exact absurd h (hshort k)
  · exact absurd h (hshort k)
  · rw [hrun, h.unique hlong]

/-- No document denotes two positions. -/
theorem Denotes.unique (hp : j.Denotes p) (hq : j.Denotes q) : p = q := by
  cases hp with
  | number hat =>
    cases hq with
    | number hat' => exact Except.ok.inj (hat.ofInt.symm.trans hat'.ofInt)
  | word hs h =>
    cases hq with
    | word _ _ => rfl
    | numeral hs' hnum _ =>
      obtain rfl := Text.ofString_inj.1 (hs.symm.trans hs')
      exact absurd h (uppered_ne_of_isNumeral hnum)
  | numeral hs hnum hat =>
    cases hq with
    | word hs' h =>
      obtain rfl := Text.ofString_inj.1 (hs.symm.trans hs')
      exact absurd h (uppered_ne_of_isNumeral hnum)
    | numeral hs' hnum' hat' =>
      obtain rfl := Text.ofString_inj.1 (hs.symm.trans hs')
      obtain ⟨rfl, rfl⟩ := hnum.unique hnum'
      exact Except.ok.inj (hat.ofInt.symm.trans hat'.ofInt)

/-- The text of a position denotes it. -/
theorem denotes_text (p : Position) : Denotes (.text p.text) p := by
  have hrun := Position.ofText_text p
  rcases ofText_cases p.text with ⟨q, hq, _, hread⟩ | ⟨cause, _, _, hread⟩ | ⟨k, _, hread⟩
  · rw [hread] at hrun
    cases hrun
    exact hq
  · rw [hread] at hrun
    cases hrun
  · rw [hread] at hrun
    cases hrun

end Json

end Changefeed
