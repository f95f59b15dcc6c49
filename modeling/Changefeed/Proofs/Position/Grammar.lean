import Changefeed.Proofs.Order
import Changefeed.Proofs.Position.Spelling
import Changefeed.Proofs.Text.Letter
import Changefeed.Proofs.Text.Trim

/-!
# The texts of positions

A text spells a position if there is, between blanks, the word for the null position
in any mix of cases, or a numeral: one sign if any, and digits (`Spells`). Nothing in
that mentions how a text is read. Reading a text that has not too many digits gives
the position that it spells and refuses a text that spells none (`ofText_eq_ok_iff`,
`ofText_refuses_iff`). Of all the texts that spell a position one is canonical, the
one that is written (`canonical_text`); so positions are equal exactly if they are
written alike.
-/

namespace Changefeed

open Text (Padded Bare InAnyCase)
open Text.Decimal (IsNumeral isDigit longest signed value)

namespace Position

/-! ## The grammar -/

/-- What is between the blanks around a text, all of it characters. -/
def Inside (core : List Char) (t : Text) : Prop :=
  ∃ s : String, t = s ∧ Padded core s.toList ∧ Bare core

/-- A text spells a position. A numeral is read in base ten; a number that no signed 64-bit word
holds is no position. -/
inductive Spells (t : Text) : Position → Prop
  | word {core : List Char} : Inside core t → InAnyCase "null".toList core → Spells t .null
  | numeral {core ds : List Char} {negative : Bool} {p : Position} : Inside core t →
      IsNumeral core negative ds → At (signed negative (Nat.ofDigitChars 10 ds 0)) p → Spells t p

variable {s : String} {t u : Text} {p q : Position} {core : List Char}

theorem inside_iff : Inside core t ↔ ∃ s : String, t = s ∧ core = (Text.trim s).toList := by
  unfold Inside
  simp only [Text.toList_trim, eq_comm (a := core), Text.trimChars_eq_iff]

theorem inside_ofString_iff : Inside core (s : Text) ↔ core = (Text.trim s).toList := by
  rw [inside_iff]
  constructor
  · rintro ⟨s', hs, hcore⟩
    rwa [Text.ofString_inj.1 hs]
  · intro hcore
    exact ⟨s, rfl, hcore⟩

/-- A text spells the positions that it denotes as a document. -/
theorem denotes_iff_spells : Json.Denotes (.text t) p ↔ Spells t p := by
  constructor
  · intro h
    cases h with
    | word hs hnull =>
      subst hs
      exact .word (inside_ofString_iff.2 rfl) (Text.uppered_eq_iff.1 hnull)
    | numeral hs hnum hat =>
      subst hs
      exact .numeral (inside_ofString_iff.2 rfl) hnum (Text.Decimal.value_eq _ ▸ hat)
  · intro h
    cases h with
    | word hinside hnull =>
      obtain ⟨s, rfl, rfl⟩ := inside_iff.1 hinside
      exact .word rfl (Text.uppered_eq_iff.2 hnull)
    | numeral hinside hnum hat =>
      obtain ⟨s, rfl, rfl⟩ := inside_iff.1 hinside
      exact .numeral rfl hnum (Text.Decimal.value_eq _ ▸ hat)

/-- No text spells two positions. -/
theorem Spells.unique (hp : Spells t p) (hq : Spells t q) : p = q :=
  (denotes_iff_spells.2 hp).unique (denotes_iff_spells.2 hq)

/-- A text has not more digits than a numeral may have. -/
def FewDigits (t : Text) : Prop := t.points.countP (fun n => 48 ≤ n ∧ n ≤ 57) ≤ longest

instance (t : Text) : Decidable (FewDigits t) := inferInstanceAs (Decidable (_ ≤ _))

theorem FewDigits.not_overlong (h : FewDigits t) (k : Nat) : ¬Json.Overlong (.text t) k := by
  intro hlong
  obtain ⟨s, rfl⟩ : ∃ s : String, t = s := by
    cases hlong with
    | numeral hs _ _ => exact ⟨_, hs⟩
  refine Json.not_overlong_of_countP_le (Nat.le_trans (Nat.le_of_eq ?_) h) k hlong
  rw [Text.points_ofString, List.countP_map]
  refine List.countP_congr fun c _ => ?_
  rw [Text.Decimal.isDigit_iff]
  simp

/-! ## Reading -/

/-- **A text is read as the position that it spells.** -/
theorem ofText_eq_ok_iff (h : FewDigits t) : ofText t = .ok p ↔ Spells t p := by
  rw [← denotes_iff_spells]
  constructor
  · intro hread
    rcases Json.ofText_cases t with ⟨q, hq, _, hok⟩ | ⟨cause, _, _, herror⟩ | ⟨k, hlong, _⟩
    · rw [hread] at hok
      cases hok
      exact hq
    · rw [hread] at herror
      cases herror
    · exact absurd hlong (h.not_overlong k)
  · intro hp
    rcases Json.ofText_cases t with ⟨q, hq, _, hok⟩ | ⟨cause, hnone, _, _⟩ | ⟨k, hlong, _⟩
    · rw [hok, hq.unique hp]
    · exact absurd hp (hnone p)
    · exact absurd hlong (h.not_overlong k)

/-- **A text is refused exactly if it spells no position.** -/
theorem ofText_refuses_iff (h : FewDigits t) :
    (∃ cause, ofText t = .error (.format cause)) ↔ ∀ p, ¬Spells t p := by
  constructor
  · rintro ⟨cause, herror⟩ p hp
    rw [(ofText_eq_ok_iff h).2 hp] at herror
    cases herror
  · intro hnone
    rcases Json.ofText_cases t with ⟨q, hq, _, _⟩ | ⟨cause, _, _, herror⟩ | ⟨k, hlong, _⟩
    · exact absurd (denotes_iff_spells.1 hq) (hnone q)
    · exact ⟨cause, herror⟩
    · exact absurd hlong (h.not_overlong k)

/-! ## Writing -/

/-- A text that is the word for the null position in capitals, or digits without a sign and with no
zero in front of others. -/
inductive Canonical : String → Prop
  | word : Canonical "NULL"
  | numeral {ds : List Char} : ds ≠ [] → (∀ c ∈ ds, isDigit c = true) →
      (ds.head? = some '0' → ds = ['0']) → Canonical (String.ofList ds)

/-- Positions are written canonically. -/
theorem canonical_text (p : Position) : Canonical p.text := by
  cases p with
  | null => exact .word
  | known n =>
    show Canonical (toString n.val)
    rw [Nat.toString_eq_ofList_toDigits]
    refine .numeral Nat.toDigits_ne_nil (fun c => Text.Decimal.isDigit_of_mem_toDigits) ?_
    intro hzero
    by_cases hn : 0 < n.val
    · obtain ⟨c, cs, hcs, hc⟩ := Text.Decimal.head_toDigits hn
      rw [hcs] at hzero
      exact absurd (Option.some.inj hzero) hc
    · rw [show n.val = 0 by omega]
      rfl

/-- Positions are written alike only if they are equal. -/
theorem text_inj : p.text = q.text ↔ p = q := by
  refine ⟨fun h => ?_, congrArg text⟩
  have hp := ofText_text p
  rw [h, ofText_text q] at hp
  exact (Except.ok.inj hp).symm

/-- A canonical text spells a position only as the position is written. -/
theorem Canonical.eq_text (h : Canonical s) (hp : Spells s p) : s = p.text := by
  cases h with
  | word =>
    have hnull : Spells "NULL" null := denotes_iff_spells.1 (Json.denotes_text null)
    rw [hp.unique hnull]
    rfl
  | @numeral ds hne hd hzero =>
    have hplain : IsNumeral (String.ofList ds).toList false ds := by
      rw [String.toList_ofList]
      exact .plain hne hd
    have hbare : Bare (String.ofList ds).toList := by
      rw [String.toList_ofList]
      exact .of_no_blank fun c hc => Text.isBlank_of_digit (hd c hc)
    cases hp with
    | word hinside hnull =>
      rw [inside_ofString_iff.1 hinside, Text.trim_eq_self hbare] at hnull
      exact absurd (Text.uppered_eq_iff.2 hnull) (Json.uppered_ne_of_isNumeral hplain)
    | numeral hinside hnum hat =>
      rw [inside_ofString_iff.1 hinside, Text.trim_eq_self hbare] at hnum
      obtain ⟨rfl, rfl⟩ := hnum.unique hplain
      rw [← Text.Decimal.value_eq] at hat
      generalize hn : signed false (value ds) = n at hat
      change (value ds : Int) = n at hn
      cases hat with
      | null _ hneg => omega
      | known m =>
        have hm : value ds = m.val := Int.ofNat.inj hn
        show String.ofList ds = toString m.val
        rw [Nat.toString_eq_ofList_toDigits, ← hm, Text.Decimal.toDigits_value hne hd hzero]

/--
**The texts of positions.** A text that has not too many digits is read as the position that it
spells, and is refused if it spells none. Every position is read back from its own text, which is
the one canonical text that spells it; so what is read from two texts is equal exactly if it is
written alike.
-/
theorem text_grammar (ht : FewDigits t) :
    (∀ p, ofValue (.text t) = .ok p ↔ Spells t p)
    ∧ ((∃ cause, ofValue (.text t) = .error (.format cause)) ↔ ∀ p, ¬Spells t p)
    ∧ (∀ p : Position, ofValue (.text p.text) = .ok p)
    ∧ (∀ p, ofValue (.text t) = .ok p →
      Canonical p.text ∧ ∀ s : String, Canonical s → Spells s p → s = p.text)
    ∧ (∀ u p q, FewDigits u → ofValue (.text t) = .ok p → ofValue (.text u) = .ok q →
      (p = q ↔ p.text = q.text)) :=
  ⟨fun _ => ofText_eq_ok_iff ht, ofText_refuses_iff ht, ofText_text,
    fun p _ => ⟨canonical_text p, fun _ => Canonical.eq_text⟩, fun _ _ _ _ _ _ => text_inj.symm⟩

/-- A numeral with blanks, a sign and a zero in front spells the position that it would without
them and is written without them, and the word for the null position spells another. -/
theorem text_grammar_of_sign_and_zero :
    FewDigits "\u3000+042\n" ∧ FewDigits "nULl" ∧ Spells "\u3000+042\n" (.known 42)
    ∧ ofValue (.text "\u3000+042\n") = .ok (.known 42) ∧ ofValue (.text "nULl") = .ok .null
    ∧ Canonical (known 42).text ∧ (known 42).text = "42"
    ∧ (known 42 = null ↔ (known 42).text = null.text) := by
  have hfew : FewDigits "\u3000+042\n" := by decide
  have hword : FewDigits "nULl" := by decide
  have hnumeral : IsNumeral ['+', '0', '4', '2'] false ['0', '4', '2'] :=
    .plus (List.cons_ne_nil '0' ['4', '2']) (by simp [isDigit])
  have hspelled : Spells "\u3000+042\n" (.known 42) :=
    .numeral (inside_ofString_iff.2 rfl) hnumeral (.known 42)
  obtain ⟨hspells, _, _, hcanonical, halike⟩ := text_grammar hfew
  have hread := (hspells (.known 42)).2 hspelled
  exact ⟨hfew, hword, hspelled, hread, rfl, (hcanonical _ hread).1, rfl,
    halike "nULl" _ _ hword hread rfl⟩

end Position

end Changefeed
