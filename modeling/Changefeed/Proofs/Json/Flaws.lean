import Changefeed.Proofs.Json.RoundTrip
import Changefeed.Text.Blank

/-!
# Texts that are no document

Of the two flaws that a text can have, being malformed is the ordinary one. The
other is a whole number that has too many digits, and no text is said to have it
that does not hold a run of so many digits (`hasLongRun_of_read`). A text of
blanks is malformed (`read_of_blank`), so a text that is read, or is found to have
too many digits, says something.
-/

namespace Changefeed.Json

open Text.Decimal (isDigit longest)

/-- Somewhere in the characters is a run of so many digits, more than a whole number may have. -/
structure HasLongRun (cs : List Char) (d : Nat) : Prop where
  long : longest < d
  run : ∃ ds, ds <:+: cs ∧ (∀ c ∈ ds, isDigit c = true) ∧ ds.length = d

/-- What comes of reading some characters: the end of them is left, or they are flawed. -/
inductive Reading.From {α : Type} (cs : List Char) : Reading α → Prop
  | ok {a : α} {rest : List Char} : rest <:+ cs → From cs (.ok (a, rest))
  | malformed : From cs (.error .malformed)
  | longNumeral {d : Nat} : HasLongRun cs d → From cs (.error (.longNumeral d))

variable {α β : Type} {cs rest : List Char} {d fuel : Nat}

namespace Reading

/-- What comes of reading the end of some characters comes of reading them. -/
theorem From.of_suffix {r : Reading α} (h : From rest r) (hs : rest <:+ cs) : From cs r := by
  cases h with
  | ok hrest => exact .ok (hrest.trans hs)
  | malformed => exact .malformed
  | longNumeral hrun =>
    obtain ⟨ds, hds, hdigits⟩ := hrun.run
    exact .longNumeral ⟨hrun.long, ds, hds.trans hs.isInfix, hdigits⟩

theorem From.map {r : Reading α} (h : From cs r) (f : α → β) :
    From cs (r.map fun a => (f a.1, a.2)) := by
  cases h with
  | ok hrest => exact .ok hrest
  | malformed => exact .malformed
  | longNumeral hrun => exact .longNumeral hrun

/-- Reading on from where reading ended. -/
theorem From.bind {r : Reading α} (h : From cs r) {f : α × List Char → Reading β}
    (hf : ∀ a rest, From rest (f (a, rest))) : From cs (r.bind f) := by
  cases h with
  | ok hrest => exact (hf _ _).of_suffix hrest
  | malformed => exact .malformed
  | longNumeral hrun => exact .longNumeral hrun

theorem From.prepend {r : Reading Text} (h : From rest r) (us : List UInt16) (hs : rest <:+ cs) :
    From cs (Reading.prepend us r) :=
  (h.map fun t => (⟨us ++ t.units⟩ : Text)).of_suffix hs

end Reading

/-! ## Parts of a document -/

theorem suffix_of_skipSpace {c : Char} (h : skipSpace cs = c :: rest) : rest <:+ cs :=
  (List.suffix_cons c rest).trans (h ▸ List.dropWhile_suffix _)

theorem from_readString (cs : List Char) : Reading.From cs (readString cs) := by
  fun_induction readString cs with
  | case1 => exact .malformed
  | case2 rest => exact .ok (List.suffix_cons ..)
  | case3 a b c d rest hv => exact .malformed
  | case4 a b c d rest n hv ih => exact ih.prepend _ ⟨['\\', 'u', a, b, c, d], rfl⟩
  | case5 c rest _ hc => exact .malformed
  | case6 c rest _ u hc ih => exact ih.prepend _ ⟨['\\', c], rfl⟩
  | case7 c rest _ _ _ hc => exact .malformed
  | case8 c rest _ _ _ hc ih => exact ih.prepend _ (List.suffix_cons ..)

theorem readWhole_append {whole : List Char} (h : readWhole cs = (whole, rest)) :
    cs = whole ++ rest := by
  unfold readWhole at h
  split at h
  · cases h
    rfl
  · cases h
    exact (List.prefix_iff_eq_append.1 (List.takeWhile_prefix isDigit)).symm

theorem readFraction_suffix (cs : List Char) : (readFraction cs).2 <:+ cs := by
  unfold readFraction
  split
  · dsimp only
    split
    · exact List.suffix_rfl
    · exact (List.drop_suffix ..).trans (List.suffix_cons ..)
  · exact List.suffix_rfl

theorem splitSign_suffix (cs : List Char) : (Text.Decimal.splitSign cs).2 <:+ cs := by
  unfold Text.Decimal.splitSign
  split
  · exact List.suffix_cons ..
  · exact List.suffix_cons ..
  · exact List.suffix_rfl

theorem readExponent_suffix (cs : List Char) : (readExponent cs).2 <:+ cs := by
  unfold readExponent
  split
  · split
    · dsimp only
      split
      · exact List.suffix_rfl
      · exact (List.drop_suffix ..).trans ((splitSign_suffix _).trans (List.suffix_cons ..))
    · exact List.suffix_rfl
  · exact List.suffix_rfl

theorem from_readNumber (negative : Bool) (cs : List Char) :
    Reading.From cs (readNumber negative cs) := by
  have hsuffix : (readExponent (readFraction (readWhole cs).2).2).2 <:+ cs := by
    have hwhole : (readWhole cs).2 <:+ cs := ⟨_, (readWhole_append rfl).symm⟩
    exact (readExponent_suffix _).trans ((readFraction_suffix _).trans hwhole)
  unfold readNumber
  dsimp only
  split
  · exact .malformed
  · split
    · split
      · rename_i hlong
        exact .longNumeral ⟨hlong, _, ⟨[], _, (readWhole_append rfl).symm⟩,
          isDigit_of_readWhole rfl, rfl⟩
      · exact .ok hsuffix
    · exact .ok hsuffix

theorem from_readScalar (cs : List Char) : Reading.From cs (readScalar cs) := by
  unfold readScalar
  split
  · exact .ok (List.drop_suffix ..)
  · split
    · exact (from_readNumber true _).of_suffix (List.suffix_cons ..)
    · exact from_readNumber false _

/-! ## Documents -/

/-- What comes of reading documents, with this fuel. -/
structure ReadsFrom (fuel : Nat) : Prop where
  value : ∀ cs, Reading.From cs (readValue fuel cs)
  items : ∀ cs, Reading.From cs (readItems fuel cs)
  fields : ∀ cs, Reading.From cs (readFields fuel cs)

theorem ReadsFrom.readValue_succ (ih : ReadsFrom fuel) (cs : List Char) :
    Reading.From cs (readValue (fuel + 1) cs) := by
  unfold readValue
  split
  · exact ((from_readString _).map Data.text).of_suffix (List.suffix_cons ..)
  · split
    · rename_i hspace
      exact .ok ((suffix_of_skipSpace hspace).trans (List.suffix_cons ..))
    · exact ((ih.items _).map Data.list).of_suffix
        ((List.dropWhile_suffix _).trans (List.suffix_cons ..))
  · split
    · rename_i hspace
      exact .ok ((suffix_of_skipSpace hspace).trans (List.suffix_cons ..))
    · exact ((ih.fields _).map fun fs => Data.record (Keyed.ofList fs).toList).of_suffix
        ((List.dropWhile_suffix _).trans (List.suffix_cons ..))
  · exact from_readScalar _

theorem ReadsFrom.readItems_succ (ih : ReadsFrom fuel) (cs : List Char) :
    Reading.From cs (readItems (fuel + 1) cs) := by
  rw [readItems]
  refine (ih.value cs).bind fun x rest => ?_
  dsimp only
  split
  · rename_i hspace
    exact .ok (suffix_of_skipSpace hspace)
  · rename_i hspace
    exact ((ih.items _).map (x :: ·)).of_suffix
      ((List.dropWhile_suffix _).trans (suffix_of_skipSpace hspace))
  · exact .malformed

theorem ReadsFrom.readFields_succ (ih : ReadsFrom fuel) (cs : List Char) :
    Reading.From cs (readFields (fuel + 1) cs) := by
  unfold readFields
  split
  · refine Reading.From.of_suffix ((from_readString _).bind fun name rest => ?_)
      (List.suffix_cons ..)
    dsimp only
    split
    · rename_i hcolon
      refine Reading.From.of_suffix ((ih.value _).bind fun x rest => ?_)
        ((List.dropWhile_suffix _).trans (suffix_of_skipSpace hcolon))
      dsimp only
      split
      · rename_i hspace
        exact .ok (suffix_of_skipSpace hspace)
      · rename_i hspace
        exact ((ih.fields _).map ((name, x) :: ·)).of_suffix
          ((List.dropWhile_suffix _).trans (suffix_of_skipSpace hspace))
      · exact .malformed
    · exact .malformed
  · exact .malformed

theorem readsFrom (fuel : Nat) : ReadsFrom fuel := by
  induction fuel with
  | zero => exact ⟨fun _ => .malformed, fun _ => .malformed, fun _ => .malformed⟩
  | succ fuel ih => exact ⟨ih.readValue_succ, ih.readItems_succ, ih.readFields_succ⟩

/-- **Too many digits** are told of no text that does not hold so many in a run. -/
theorem hasLongRun_of_read {s : String} (h : read s = .error (.longNumeral d)) :
    HasLongRun s.toList d := by
  have hread : Reading.From s.toList (readValue (2 * s.toList.length + 2) (skipSpace s.toList)) :=
    ((readsFrom _).value _).of_suffix (List.dropWhile_suffix _)
  unfold read readChars at h
  generalize readValue (2 * s.toList.length + 2) (skipSpace s.toList) = r at h hread
  cases hread with
  | malformed => cases h
  | longNumeral hrun =>
    cases h
    exact hrun
  | ok hrest =>
    -- what was read whole is flawed at most by what follows it
    simp only [bind, Except.bind] at h
    split at h <;> cases h

/-! ## Blanks -/

/-- A blank is none of the characters that a part of a document begins with. -/
theorem ne_of_isBlank {c e : Char} (hc : Text.isBlank c = true) (he : Text.isBlank e = false) :
    c ≠ e := by
  rintro rfl
  rw [hc] at he
  cases he

theorem readScalar_blank {c : Char} (hc : Text.isBlank c = true) (rest : List Char) :
    readScalar (c :: rest) = .error .malformed := by
  have hne : ∀ e, Text.isBlank e = false → (e == c) = false := fun e he =>
    beq_eq_false_iff_ne.2 (ne_of_isBlank hc he).symm
  have hword : (words.find? fun w => w.1.isPrefixOf (c :: rest)) = none := by
    simp [words, List.isPrefixOf, hne 'n' rfl, hne 't' rfl, hne 'f' rfl, hne 'N' rfl, hne 'I' rfl,
      hne '-' rfl]
  have hwhole : readWhole (c :: rest) = ([], c :: rest) := by
    have hdigit : isDigit c = false := by
      cases hd : isDigit c with
      | false => rfl
      | true => exact absurd hc (by simp [Text.isBlank_of_digit hd])
    unfold readWhole
    split
    · rename_i heq
      cases heq
      exact absurd hc (by decide)
    · rw [List.takeWhile_cons_of_neg (by simp [hdigit])]
      rfl
  unfold readScalar
  rw [hword]
  dsimp only
  split
  · rename_i heq
    cases heq
    exact absurd hc (by decide)
  · unfold readNumber
    rw [hwhole]
    rfl

theorem readValue_blank {c : Char} (hc : Text.isBlank c = true) (rest : List Char) (fuel : Nat) :
    readValue fuel (c :: rest) = .error .malformed := by
  cases fuel with
  | zero => rfl
  | succ fuel =>
    rw [readValue]
    · exact readScalar_blank hc rest
    · rintro rest' ⟨⟩
      exact absurd hc (by decide)
    · rintro rest' ⟨⟩
      exact absurd hc (by decide)
    · rintro rest' ⟨⟩
      exact absurd hc (by decide)

/-- **A text of blanks is no document.** -/
theorem read_of_blank {s : String} (h : Text.isBlankText s = true) :
    read s = .error .malformed := by
  unfold Text.isBlankText at h
  have hrest : ∀ c ∈ skipSpace s.toList, Text.isBlank c = true := fun c hc =>
    List.all_eq_true.1 h c ((List.dropWhile_sublist _).subset hc)
  unfold read readChars
  cases hs : skipSpace s.toList with
  | nil => rfl
  | cons c rest =>
    rw [readValue_blank (hrest c (hs ▸ List.mem_cons_self))]
    rfl

end Changefeed.Json
