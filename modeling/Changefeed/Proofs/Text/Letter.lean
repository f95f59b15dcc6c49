import Mathlib.Data.List.Forall2
import Changefeed.Text.Letter

/-!
# Words in any mix of cases

Two texts that come out alike in upper case agree letter by letter, each letter being
small in one and capital in the other or the same in both. So a text is a small word
in upper case exactly if it is that word in some mix of cases (`uppered_eq_iff`).
-/

namespace Changefeed.Text

/-- A small word with any of its letters in capitals. -/
def InAnyCase (word cs : List Char) : Prop :=
  List.Forall₂ (fun small c => c = small ∨ c = small.toUpper) word cs

theorem toNat_upper (c : Char) :
    (upper c).toNat = if 97 ≤ c.toNat ∧ c.toNat ≤ 122 then c.toNat - 32 else c.toNat := by
  unfold upper Char.toUpper
  have hsmall : ('a'.val ≤ c.val ∧ c.val ≤ 'z'.val) ↔ 97 ≤ c.toNat ∧ c.toNat ≤ 122 := Iff.rfl
  by_cases h : 97 ≤ c.toNat ∧ c.toNat ≤ 122
  · rw [dif_pos (hsmall.2 h), if_pos h]
    show (c.val + ('A'.val - 'a'.val)).toNat = c.val.toNat - 32
    have hl : 97 ≤ c.val.toNat := h.1
    have hr : c.val.toNat ≤ 122 := h.2
    have hshift : ('A'.val - 'a'.val).toNat = 4294967264 := rfl
    rw [UInt32.toNat_add, hshift]
    omega
  · rw [dif_neg (mt hsmall.1 h), if_neg h]

theorem upper_eq_upper_iff {small c : Char} (h : 97 ≤ small.toNat ∧ small.toNat ≤ 122) :
    upper c = upper small ↔ c = small ∨ c = small.toUpper := by
  show upper c = upper small ↔ c = small ∨ c = upper small
  have hupper := toNat_upper small
  rw [if_pos h] at hupper
  rw [← Char.toNat_inj, ← Char.toNat_inj, ← Char.toNat_inj, hupper, toNat_upper]
  split <;> omega

theorem map_upper_eq_iff {word cs : List Char} (h : ∀ c ∈ word, 97 ≤ c.toNat ∧ c.toNat ≤ 122) :
    cs.map upper = word.map upper ↔ InAnyCase word cs := by
  induction word generalizing cs with
  | nil => simp [InAnyCase]
  | cons small rest ih =>
    cases cs with
    | nil => simp [InAnyCase]
    | cons c cs =>
      have hrest : cs.map upper = rest.map upper ↔ InAnyCase rest cs :=
        ih fun d hd => h d (List.mem_cons_of_mem _ hd)
      have hfirst := upper_eq_upper_iff (c := c) (h small List.mem_cons_self)
      unfold InAnyCase at hrest ⊢
      rw [List.map_cons, List.map_cons, List.cons.injEq, List.forall₂_cons, hfirst, hrest]

/-- The word for the null position, in any mix of cases. -/
theorem uppered_eq_iff {s : String} :
    uppered s = "NULL" ↔ InAnyCase "null".toList s.toList := by
  rw [← map_upper_eq_iff (by simp), ← String.toList_inj]
  unfold uppered
  rw [String.toList_ofList]
  exact Iff.rfl

end Changefeed.Text
