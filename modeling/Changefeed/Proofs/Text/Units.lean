import Changefeed.Text.Basic

/-!
# Texts and their characters

Two sequences of units have the same code points only if they are the same
(`points_inj`), so the order of texts is linear. A string of characters is a text
whose characters are those of the string, and no other text has these
(`plain?_eq_some_iff`).
-/

namespace Changefeed.Text

/-! ## Units and code points -/

variable {u v : UInt16} {us : List UInt16} {s t : Text}

theorem isHigh_iff : isHigh u = true ↔ 0xD800 ≤ u.toNat ∧ u.toNat < 0xDC00 := by
  simp [isHigh, UInt16.le_iff_toNat_le, UInt16.lt_iff_toNat_lt]

theorem isLow_iff : isLow u = true ↔ 0xDC00 ≤ u.toNat ∧ u.toNat < 0xE000 := by
  simp [isLow, UInt16.le_iff_toNat_le, UInt16.lt_iff_toNat_lt]

theorem unitsOf_toNat (u : UInt16) : unitsOf u.toNat = [u] := by
  unfold unitsOf
  rw [if_pos u.toNat_lt, UInt16.ofNat_toNat]

/-- The code point of a pair has its halves as units. -/
theorem unitsOf_pair (hu : isHigh u = true) (hv : isLow v = true) :
    unitsOf (0x10000 + (u.toNat - 0xD800) * 0x400 + (v.toNat - 0xDC00)) = [u, v] := by
  have hhigh := isHigh_iff.1 hu
  have hlow := isLow_iff.1 hv
  have hu' : 0xD800 + (0x10000 + (u.toNat - 0xD800) * 0x400 + (v.toNat - 0xDC00) - 0x10000) / 0x400
      = u.toNat := by omega
  have hv' : 0xDC00 + (0x10000 + (u.toNat - 0xD800) * 0x400 + (v.toNat - 0xDC00) - 0x10000) % 0x400
      = v.toNat := by omega
  unfold unitsOf
  rw [if_neg (by omega), hu', hv', UInt16.ofNat_toNat, UInt16.ofNat_toNat]

theorem flatMap_unitsOf_pointsOf (us : List UInt16) : (pointsOf us).flatMap unitsOf = us := by
  fun_induction pointsOf us with
  | case1 => rfl
  | case2 u => rw [List.flatMap_cons, unitsOf_toNat, List.flatMap_nil, List.append_nil]
  | case3 u v rest h ih =>
    obtain ⟨hu, hv⟩ := Bool.and_eq_true_iff.1 h
    rw [List.flatMap_cons, unitsOf_pair hu hv, ih]
    rfl
  | case4 u v rest _ ih =>
    rw [List.flatMap_cons, unitsOf_toNat, ih]
    rfl

/-- **A text is that of its code points.** -/
theorem ofPoints_points (t : Text) : ofPoints t.points = t := by
  unfold ofPoints points
  rw [flatMap_unitsOf_pointsOf]

theorem points_inj : s.points = t.points ↔ s = t := by
  refine ⟨fun h => ?_, congrArg points⟩
  rw [← ofPoints_points s, ← ofPoints_points t, h]

theorem isEmpty_iff : t.isEmpty = true ↔ t = "" := by
  unfold isEmpty
  rw [List.isEmpty_iff]
  cases t
  exact mk.injEq .. ▸ Iff.rfl

/-! ## Order -/

theorem le_trans {s t u : Text} (hst : s ≤ t) (htu : t ≤ u) : s ≤ u := List.le_trans hst htu

theorem le_total (s t : Text) : s ≤ t ∨ t ≤ s := List.le_total s.points t.points

theorem le_antisymm (hst : s ≤ t) (hts : t ≤ s) : s = t :=
  points_inj.1 (List.le_antisymm hst hts)

/-! ## Characters -/

theorem toNat_cases (c : Char) : c.toNat < 0xD800 ∨ 0xDFFF < c.toNat ∧ c.toNat < 0x110000 :=
  c.valid

theorem charOf?_toNat (c : Char) : charOf? c.toNat = some c := by
  have hvalid : c.toNat.isValidChar := c.valid
  unfold charOf?
  rw [if_pos hvalid, Char.ofNat_toNat]

theorem toNat_of_charOf? {n : Nat} {c : Char} (h : charOf? n = some c) : c.toNat = n := by
  unfold charOf? at h
  split at h
  · rename_i hvalid
    cases h
    rw [Char.ofNat, dif_pos hvalid]
    rfl
  · cases h

theorem pointsOf_cons_of_not_high (h : isHigh u = false) (us : List UInt16) :
    pointsOf (u :: us) = u.toNat :: pointsOf us := by
  cases us with
  | nil => rfl
  | cons v rest => simp [pointsOf, h]

/-- The units of a character are read as its code point, whatever stands behind them. -/
theorem pointsOf_unitsOf_append (c : Char) (us : List UInt16) :
    pointsOf (unitsOf c.toNat ++ us) = c.toNat :: pointsOf us := by
  have hc := toNat_cases c
  unfold unitsOf
  split
  · rename_i hsmall
    have htoNat : (UInt16.ofNat c.toNat).toNat = c.toNat := UInt16.toNat_ofNat_of_lt' hsmall
    have hnot : isHigh (UInt16.ofNat c.toNat) = false := by
      rw [Bool.eq_false_iff, Ne, isHigh_iff, htoNat]
      omega
    rw [List.singleton_append, pointsOf_cons_of_not_high hnot, htoNat]
  · rename_i hlarge
    have hhigh : (UInt16.ofNat (0xD800 + (c.toNat - 0x10000) / 0x400)).toNat =
        0xD800 + (c.toNat - 0x10000) / 0x400 :=
      UInt16.toNat_ofNat_of_lt' (show _ < 65536 by omega)
    have hlow : (UInt16.ofNat (0xDC00 + (c.toNat - 0x10000) % 0x400)).toNat =
        0xDC00 + (c.toNat - 0x10000) % 0x400 :=
      UInt16.toNat_ofNat_of_lt' (show _ < 65536 by omega)
    have hpair : (isHigh (UInt16.ofNat (0xD800 + (c.toNat - 0x10000) / 0x400)) &&
        isLow (UInt16.ofNat (0xDC00 + (c.toNat - 0x10000) % 0x400))) = true := by
      rw [Bool.and_eq_true_iff, isHigh_iff, isLow_iff, hhigh, hlow]
      omega
    have hpoint : 0x10000 + (0xD800 + (c.toNat - 0x10000) / 0x400 - 0xD800) * 0x400
        + (0xDC00 + (c.toNat - 0x10000) % 0x400 - 0xDC00) = c.toNat := by omega
    rw [List.cons_append, List.singleton_append, pointsOf, if_pos hpair, hhigh, hlow, hpoint]

/-- The code points of a string of characters are those of the characters. -/
theorem points_ofString (s : String) : (s : Text).points = s.toList.map Char.toNat := by
  unfold ofString ofPoints points
  dsimp only
  induction s.toList with
  | nil => rfl
  | cons c cs ih => rw [List.map_cons, List.flatMap_cons, pointsOf_unitsOf_append, ih]

theorem mapM_charOf?_map_toNat (cs : List Char) : (cs.map Char.toNat).mapM charOf? = some cs := by
  induction cs with
  | nil => rfl
  | cons c cs ih =>
    rw [List.map_cons, List.mapM_cons, charOf?_toNat, ih]
    rfl

theorem map_toNat_of_mapM_charOf? {ns : List Nat} {cs : List Char} (h : ns.mapM charOf? = some cs) :
    cs.map Char.toNat = ns := by
  induction ns generalizing cs with
  | nil =>
    cases h
    rfl
  | cons n ns ih =>
    rw [List.mapM_cons] at h
    cases hn : charOf? n with
    | none =>
      rw [hn] at h
      cases h
    | some c =>
      cases hns : ns.mapM charOf? with
      | none =>
        rw [hn, hns] at h
        cases h
      | some cs' =>
        rw [hn, hns] at h
        cases h
        rw [List.map_cons, toNat_of_charOf? hn, ih hns]

@[simp] theorem plain?_ofString (s : String) : (s : Text).plain? = some s := by
  unfold plain?
  rw [points_ofString, mapM_charOf?_map_toNat, Option.map_some, String.ofList_toList]

/-- **A text has the characters of the string that it is**, and none if it is no string. -/
theorem plain?_eq_some_iff {s : String} : t.plain? = some s ↔ t = s := by
  constructor
  · intro h
    unfold plain? at h
    obtain ⟨cs, hcs, rfl⟩ := Option.map_eq_some_iff.1 h
    rw [← points_inj, points_ofString, String.toList_ofList, map_toNat_of_mapM_charOf? hcs]
  · rintro rfl
    exact plain?_ofString s

/-- Strings that are one text are one string. -/
@[simp] theorem ofString_inj {s t : String} : (s : Text) = t ↔ s = t := by
  rw [← plain?_eq_some_iff, plain?_ofString, Option.some_inj]

end Changefeed.Text
