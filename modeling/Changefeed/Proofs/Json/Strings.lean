import Changefeed.Json.Reader
import Changefeed.Json.Writer
import Changefeed.Proofs.Keyed
import Changefeed.Proofs.Text.Units

/-!
# Strings in documents read back

Every unit is read from its escape as itself (`readString_escapeUnit`), a surrogate
like any other, so every string is read from between its quotes
(`readString_escaped`).
-/

namespace Changefeed.Json

/-! ## Hexadecimal digits -/

theorem hexValue?_hexDigit : ∀ k < 16, hexValue? (Text.hexDigit k) = some k := by decide

theorem hexValue4?_hexDigits {n : Nat} (hn : n < 0x10000) :
    hexValue4? (Text.hexDigit (n / 16 / 16 / 16 % 16)) (Text.hexDigit (n / 16 / 16 % 16))
      (Text.hexDigit (n / 16 % 16)) (Text.hexDigit (n % 16)) = some n := by
  have hdigit : ∀ k, hexValue? (Text.hexDigit (k % 16)) = some (k % 16) := fun k =>
    hexValue?_hexDigit _ (Nat.mod_lt k (by omega))
  unfold hexValue4?
  rw [hdigit, hdigit, hdigit, hdigit]
  show some _ = some n
  congr 1
  omega

/-! ## Escapes -/

/-- The escape of a unit by its digits is read as the unit. -/
theorem readString_digits (u : UInt16) (rest : List Char) :
    readString ('\\' :: 'u' :: Text.hexDigits 4 u.toNat ++ rest) =
      Reading.prepend [u] (readString rest) := by
  show readString ('\\' :: 'u' :: _ :: _ :: _ :: _ :: rest) = _
  simp only [readString, hexValue4?_hexDigits u.toNat_lt, UInt16.ofNat_toNat]

/-- So is its escape by a letter. -/
theorem readString_letter {letter : Char} {u : UInt16} (h : escaped? letter = some u)
    (rest : List Char) :
    readString ('\\' :: letter :: rest) = Reading.prepend [u] (readString rest) := by
  rw [readString, h]
  rintro _ _ _ _ _ rfl
  cases h

/-- Any other character but a control character or a quote stands for its units. -/
theorem readString_plain {c : Char} (hl : ' ' ≤ c) (hq : c ≠ '"') (hb : c ≠ '\\') (rest : List Char) :
    readString (c :: rest) = Reading.prepend (Text.unitsOf c.toNat) (readString rest) := by
  rw [readString]
  · have : ¬c < ' ' := Char.not_lt.2 hl
    simp [this, hb]
  · exact hq
  · rintro _ _ _ _ _ h _
    exact hb h
  · rintro _ _ h _
    exact hb h

/-- The character of a unit that is written as it is. -/
theorem toNat_ofNat_of_le {u : UInt16} (h : u ≤ 0x7E) : (Char.ofNat u.toNat).toNat = u.toNat := by
  have hu : u.toNat ≤ 0x7E := UInt16.le_iff_toNat_le.1 h
  rw [Char.ofNat, dif_pos (.inl (by omega))]
  rfl

theorem readString_printable {u : UInt16} (hl : 0x20 ≤ u) (hu : u ≤ 0x7E) (hq : u ≠ 0x22)
    (hb : u ≠ 0x5C) (rest : List Char) :
    readString (Char.ofNat u.toNat :: rest) = Reading.prepend [u] (readString rest) := by
  have hnat := toNat_ofNat_of_le hu
  have hne : ∀ {c : Char} {v : UInt16}, c.toNat = v.toNat → u ≠ v → Char.ofNat u.toNat ≠ c := by
    rintro c v hv hne rfl
    exact hne (UInt16.toNat_inj.1 (hnat.symm.trans hv))
  have hspace : ' ' ≤ Char.ofNat u.toNat := by
    have hle : (0x20 : UInt16).toNat ≤ u.toNat := UInt16.le_iff_toNat_le.1 hl
    show ' '.toNat ≤ (Char.ofNat u.toNat).toNat
    rw [hnat]
    exact hle
  rw [readString_plain hspace (hne rfl hq) (hne rfl hb), hnat, Text.unitsOf_toNat]

/-- A letter is read as the unit that is written with it. -/
theorem escaped?_of_letter {u : UInt16} {letter : Char} (h : Keyed.find u letters = some letter) :
    escaped? letter = some u := by
  have hall : ∀ e ∈ letters, escaped? e.2 = some e.1 := by decide
  exact hall (u, letter) ((Keyed.find_eq_some_iff (by decide)).1 h)

/-- **Every unit is read from its escape.** -/
theorem readString_escapeUnit (u : UInt16) (rest : List Char) :
    readString (escapeUnit u ++ rest) = Reading.prepend [u] (readString rest) := by
  unfold escapeUnit
  cases hletter : Keyed.find u letters with
  | some letter => exact readString_letter (escaped?_of_letter hletter) rest
  | none =>
    dsimp only
    split
    · rename_i hprintable
      obtain ⟨hl, hu⟩ := hprintable
      have hq : u ≠ 0x22 := by
        rintro rfl
        cases hletter
      have hb : u ≠ 0x5C := by
        rintro rfl
        cases hletter
      exact readString_printable hl hu hq hb rest
    · exact readString_digits u rest

/-- **Every string is read from between its quotes.** -/
theorem readString_escaped (t : Text) (rest : List Char) :
    readString (t.units.flatMap escapeUnit ++ '"' :: rest) = .ok (t, rest) := by
  obtain ⟨us⟩ := t
  dsimp only
  induction us with
  | nil => rw [List.flatMap_nil, List.nil_append, readString]
  | cons u us ih =>
    rw [List.flatMap_cons, List.append_assoc, readString_escapeUnit, ih]
    rfl

end Changefeed.Json
