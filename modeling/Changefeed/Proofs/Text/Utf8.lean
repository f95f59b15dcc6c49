import Changefeed.Text.Utf8

/-!
# The octets that encode a text

A character is encoded in one to four octets, and `Encodes` is the table of that: which
octets they are, and the number of the character that they stand for. The octets of
a character are the ones that the table has for it (`encodes_char`), the octets of
the table are those of a character (`Encodes.char`), and reading takes off what the
table has (`Encodes.readFrom`) or fails (`readFrom_cases`). So a text is read from the
octets that encode it and from no others (`read_eq_ok_iff`).
-/

namespace Changefeed.Text.Utf8

/-- The octets that encode some characters. -/
def encoded (cs : List Char) : List UInt8 := cs.flatMap String.utf8EncodeChar

/-! ## The octets of a character -/

/-- The octets that stand for a number. -/
inductive Encodes : Nat → List UInt8 → Prop
  | one {a : UInt8} : a.toNat < 0x80 → Encodes a.toNat [a]
  | two {a b : UInt8} : 0xC2 ≤ a.toNat → a.toNat < 0xE0 → isContinuation b = true →
      Encodes (a.toNat % 32 * 64 + b.toNat % 64) [a, b]
  | three {a b c : UInt8} : 0xE0 ≤ a.toNat → a.toNat < 0xF0 → isSecond a b = true →
      isContinuation c = true →
      Encodes ((a.toNat % 16 * 64 + b.toNat % 64) * 64 + c.toNat % 64) [a, b, c]
  | four {a b c d : UInt8} : 0xF0 ≤ a.toNat → a.toNat ≤ 0xF4 → isSecond a b = true →
      isContinuation c = true → isContinuation d = true →
      Encodes (((a.toNat % 8 * 64 + b.toNat % 64) * 64 + c.toNat % 64) * 64 + d.toNat % 64)
        [a, b, c, d]

variable {a b : UInt8} {n : Nat} {octets rest : List UInt8} {cs : List Char} {s : String}

theorem isContinuation_iff : isContinuation b = true ↔ 0x80 ≤ b.toNat ∧ b.toNat ≤ 0xBF := by
  unfold isContinuation
  simp [UInt8.le_iff_toNat_le]

/-- The bounds of a second octet, with those of the first octets that narrow them. -/
theorem isSecond_iff : isSecond a b = true ↔
    (0x80 ≤ b.toNat ∧ b.toNat ≤ 0xBF) ∧ (a.toNat = 0xE0 → 0xA0 ≤ b.toNat)
      ∧ (a.toNat = 0xF0 → 0x90 ≤ b.toNat) ∧ (a.toNat = 0xED → b.toNat ≤ 0x9F)
      ∧ (a.toNat = 0xF4 → b.toNat ≤ 0x8F) := by
  unfold isSecond
  simp only [Bool.and_eq_true, decide_eq_true_eq, UInt8.le_iff_toNat_le, ← UInt8.toNat_inj,
    apply_ite UInt8.toNat, UInt8.reduceToNat]
  grind

/-- The numbers of the table are those of characters: none is a surrogate or too large. -/
theorem Encodes.isValidChar (h : Encodes n octets) : n.isValidChar := by
  unfold Nat.isValidChar
  cases h with
  | one ha => omega
  | two hlow hhigh hb => omega
  | three hlow hhigh hb hc =>
    have := isSecond_iff.1 hb
    omega
  | four hlow hhigh hb hc hd =>
    have := isSecond_iff.1 hb
    omega

theorem val_ofNat (h : n.isValidChar) : (Char.ofNat n).val.toNat = n := by
  unfold Char.ofNat
  rw [dif_pos h]
  rfl

theorem ofNat_eq {m : Nat} (h : m = a.toNat) : UInt8.ofNat m = a := by
  rw [h, UInt8.ofNat_toNat]

/-- **The octets of the table** are those of the character that they stand for. -/
theorem Encodes.char (h : Encodes n octets) : String.utf8EncodeChar (Char.ofNat n) = octets := by
  unfold String.utf8EncodeChar
  rw [val_ofNat h.isValidChar]
  dsimp only
  cases h with
  | one ha => rw [if_pos (by omega), UInt8.ofNat_toNat]
  | @two a b hlow hhigh hb =>
    have := isContinuation_iff.1 hb
    rw [if_neg (by omega), if_pos (by omega), ofNat_eq (a := a) (by omega),
      ofNat_eq (a := b) (by omega)]
  | @three a b c hlow hhigh hb hc =>
    have := isSecond_iff.1 hb
    have := isContinuation_iff.1 hc
    rw [if_neg (by omega), if_neg (by omega), if_pos (by omega), ofNat_eq (a := a) (by omega),
      ofNat_eq (a := b) (by omega), ofNat_eq (a := c) (by omega)]
  | @four a b c d hlow hhigh hb hc hd =>
    have := isSecond_iff.1 hb
    have := isContinuation_iff.1 hc
    have := isContinuation_iff.1 hd
    rw [if_neg (by omega), if_neg (by omega), if_neg (by omega), ofNat_eq (a := a) (by omega),
      ofNat_eq (a := b) (by omega), ofNat_eq (a := c) (by omega), ofNat_eq (a := d) (by omega)]

/-- **The octets of a character** are in the table, and stand for it. -/
theorem encodes_char (ch : Char) : Encodes ch.toNat (String.utf8EncodeChar ch) := by
  have hvalid : ch.toNat.isValidChar := ch.valid
  have hoctet : ∀ m, m < 256 → (UInt8.ofNat m).toNat = m := fun m => UInt8.toNat_ofNat_of_lt
  unfold Nat.isValidChar at hvalid
  unfold String.utf8EncodeChar
  have hv : ch.val.toNat = ch.toNat := rfl
  rw [hv]
  generalize ch.toNat = v at hvalid ⊢
  dsimp only
  split
  · have h := Encodes.one (a := .ofNat v) (by rw [hoctet] <;> omega)
    rwa [hoctet v (by omega)] at h
  have hlast := hoctet (v % 64 + 128) (by omega)
  split
  · have hfirst := hoctet (v / 64 % 32 + 192) (by omega)
    have h := Encodes.two (a := .ofNat (v / 64 % 32 + 192)) (b := .ofNat (v % 64 + 128))
      (by omega) (by omega) (isContinuation_iff.2 (by omega))
    have hnumber : (v / 64 % 32 + 192) % 32 * 64 + (v % 64 + 128) % 64 = v := by omega
    rwa [hfirst, hlast, hnumber] at h
  have hsecondLast := hoctet (v / 64 % 64 + 128) (by omega)
  split
  · have hfirst := hoctet (v / 4096 % 16 + 224) (by omega)
    have h := Encodes.three (a := .ofNat (v / 4096 % 16 + 224)) (b := .ofNat (v / 64 % 64 + 128))
      (c := .ofNat (v % 64 + 128)) (by omega) (by omega) (isSecond_iff.2 (by omega))
      (isContinuation_iff.2 (by omega))
    have hnumber : ((v / 4096 % 16 + 224) % 16 * 64 + (v / 64 % 64 + 128) % 64) * 64
        + (v % 64 + 128) % 64 = v := by omega
    rwa [hfirst, hsecondLast, hlast, hnumber] at h
  · have hfirst := hoctet (v / 262144 % 8 + 240) (by omega)
    have hsecond := hoctet (v / 4096 % 64 + 128) (by omega)
    have h := Encodes.four (a := .ofNat (v / 262144 % 8 + 240)) (b := .ofNat (v / 4096 % 64 + 128))
      (c := .ofNat (v / 64 % 64 + 128)) (d := .ofNat (v % 64 + 128)) (by omega) (by omega)
      (isSecond_iff.2 (by omega)) (isContinuation_iff.2 (by omega))
      (isContinuation_iff.2 (by omega))
    have hnumber : (((v / 262144 % 8 + 240) % 8 * 64 + (v / 4096 % 64 + 128) % 64) * 64
        + (v / 64 % 64 + 128) % 64) * 64 + (v % 64 + 128) % 64 = v := by omega
    rwa [hfirst, hsecond, hsecondLast, hlast, hnumber] at h

/-! ## Reading -/

/-- What begins a longer character is no character by itself, and begins one. -/
theorem begins_of_bounds (hlow : 0xC2 ≤ a.toNat) (hhigh : a.toNat ≤ 0xF4) :
    ¬a < 0x80 ∧ ¬(a < 0xC2 || 0xF4 < a) = true := by
  simp only [Bool.or_eq_true, decide_eq_true_eq, UInt8.lt_iff_toNat_lt, UInt8.reduceToNat]
  omega

/-- Reading takes the octets of a character off the front. -/
theorem Encodes.readFrom (h : Encodes n octets) (pos : Nat) (rest : List UInt8) :
    readFrom pos (octets ++ rest) =
      (readFrom (pos + octets.length) rest).map (Char.ofNat n :: ·) := by
  rw [Utf8.readFrom.eq_def]
  have hlt : ∀ a k : UInt8, a < k ↔ a.toNat < k.toNat := fun _ _ => UInt8.lt_iff_toNat_lt
  cases h with
  | @one a ha =>
    have hascii : a < 0x80 := (hlt ..).2 ha
    dsimp only [List.cons_append, List.nil_append]
    rw [if_pos hascii]
    rfl
  | @two a b hlow hhigh hb =>
    obtain ⟨hascii, hstart⟩ := begins_of_bounds hlow (by omega)
    have htwo : a < 0xE0 := (hlt ..).2 hhigh
    dsimp only [List.cons_append, List.nil_append]
    rw [if_neg hascii, if_neg hstart, if_pos htwo, if_pos hb]
    rfl
  | @three a b c hlow hhigh hb hc =>
    obtain ⟨hascii, hstart⟩ := begins_of_bounds (a := a) (by omega) (by omega)
    have htwo : ¬a < 0xE0 := by simp [hlt]; omega
    have hthree : a < 0xF0 := (hlt ..).2 hhigh
    dsimp only [List.cons_append, List.nil_append]
    rw [if_neg hascii, if_neg hstart, if_neg htwo, if_pos hthree, hb, hc]
    rfl
  | @four a b c d hlow hhigh hb hc hd =>
    obtain ⟨hascii, hstart⟩ := begins_of_bounds (a := a) (by omega) (by omega)
    have htwo : ¬a < 0xE0 := by simp [hlt]; omega
    have hthree : ¬a < 0xF0 := by simp [hlt]; omega
    dsimp only [List.cons_append, List.nil_append]
    rw [if_neg hascii, if_neg hstart, if_neg htwo, if_neg hthree, hb, hc, hd]
    rfl

/-- Octets begin with those of a character, or reading them fails. -/
theorem readFrom_cases (pos : Nat) (octets : List UInt8) : octets = []
    ∨ (∃ n first rest, Encodes n first ∧ octets = first ++ rest)
    ∨ ∃ flaw, readFrom pos octets = .error flaw := by
  cases octets with
  | nil => exact .inl rfl
  | cons a rest =>
    right
    rw [readFrom.eq_def]
    dsimp only
    split
    · rename_i hascii
      exact .inl ⟨_, _, rest, .one (UInt8.lt_iff_toNat_lt.1 hascii), rfl⟩
    split
    · exact .inr ⟨_, rfl⟩
    rename_i hascii hstart
    simp only [Bool.or_eq_true, decide_eq_true_eq, UInt8.lt_iff_toNat_lt, UInt8.reduceToNat,
      not_or] at hascii hstart
    split
    · rename_i htwo
      rw [UInt8.lt_iff_toNat_lt] at htwo
      split
      · exact .inr ⟨_, rfl⟩
      · split
        · rename_i hb
          exact .inl ⟨_, [a, _], _, .two (by omega) htwo hb, rfl⟩
        · exact .inr ⟨_, rfl⟩
    rename_i htwo
    split
    · rename_i hthree
      rw [UInt8.lt_iff_toNat_lt] at htwo hthree
      split
      · exact .inr ⟨_, rfl⟩
      · split <;> exact .inr ⟨_, rfl⟩
      · split
        · exact .inr ⟨_, rfl⟩
        split
        · exact .inr ⟨_, rfl⟩
        rename_i hb hc
        exact .inl ⟨_, [a, _, _], _, .three (by simpa using htwo) hthree (by simpa using hb)
          (by simpa using hc), rfl⟩
    · rename_i hthree
      rw [UInt8.lt_iff_toNat_lt] at hthree
      split
      · exact .inr ⟨_, rfl⟩
      · split <;> exact .inr ⟨_, rfl⟩
      · split
        · exact .inr ⟨_, rfl⟩
        split <;> exact .inr ⟨_, rfl⟩
      · split
        · exact .inr ⟨_, rfl⟩
        split
        · exact .inr ⟨_, rfl⟩
        split
        · exact .inr ⟨_, rfl⟩
        rename_i hb hc hd
        exact .inl ⟨_, [a, _, _, _], _, .four (by simpa using hthree) (by omega)
          (by simpa using hb) (by simpa using hc) (by simpa using hd), rfl⟩

theorem readFrom_encoded (cs : List Char) (pos : Nat) : readFrom pos (encoded cs) = .ok cs := by
  induction cs generalizing pos with
  | nil => rfl
  | cons ch cs ih =>
    show readFrom pos (String.utf8EncodeChar ch ++ encoded cs) = .ok (ch :: cs)
    rw [(encodes_char ch).readFrom, ih, Char.ofNat_toNat]
    rfl

theorem encoded_of_readFrom {pos : Nat} (h : readFrom pos octets = .ok cs) :
    encoded cs = octets := by
  induction hlen : octets.length using Nat.strongRecOn generalizing octets pos cs with
  | _ k ih =>
    rcases readFrom_cases pos octets with rfl | ⟨n, first, rest, hfirst, rfl⟩ | ⟨flaw, hflaw⟩
    · cases h
      rfl
    · rw [hfirst.readFrom] at h
      cases hrest : readFrom (pos + first.length) rest with
      | error flaw =>
        rw [hrest] at h
        cases h
      | ok cs' =>
        rw [hrest] at h
        cases h
        have hshorter : rest.length < k := by
          rw [← hlen, List.length_append]
          cases hfirst <;> exact Nat.lt_add_of_pos_left (Nat.succ_pos _)
        show String.utf8EncodeChar (Char.ofNat n) ++ encoded cs' = first ++ rest
        rw [hfirst.char, ih _ hshorter hrest rfl]
    · rw [hflaw] at h
      cases h

theorem toList_toUTF8 (s : String) : s.toUTF8.data.toList = encoded s.toList := by
  rw [String.toUTF8_eq_toByteArray, ← String.utf8Encode_toList]
  unfold List.utf8Encode
  rw [List.data_toByteArray]
  rfl

/-- **A text is read** from the octets that encode it and from no others. -/
theorem read_eq_ok_iff : read octets = .ok s ↔ octets = s.toUTF8.data.toList := by
  rw [toList_toUTF8]
  unfold read
  constructor
  · intro h
    cases hread : readFrom 0 octets with
    | error flaw =>
      rw [hread] at h
      cases h
    | ok cs =>
      rw [hread] at h
      cases h
      rw [String.toList_ofList, encoded_of_readFrom hread]
  · rintro rfl
    rw [readFrom_encoded]
    exact congrArg Except.ok String.ofList_toList

end Changefeed.Text.Utf8
