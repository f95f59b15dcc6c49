import Mathlib.Data.List.DropRight
import Changefeed.Text.Blank

/-!
# Blanks around a text

Blanks may be put around a text or taken off it, and what is inside stays the same.
A text has one inside: of the texts that it is with blanks around them (`Padded`),
the one that neither begins nor ends with a blank (`Bare`). That is what trimming
gives (`trimChars_eq_iff`), so trimming does not see blanks that are added
(`trim_padded`), and trims nothing off twice (`trim_trim`).
-/

namespace Changefeed.Text

variable {inner outer cs : List Char}

/-- The second of two texts is the first with blanks around it, if with anything. -/
def Padded (inner outer : List Char) : Prop :=
  ∃ before after, outer = before ++ inner ++ after
    ∧ (∀ c ∈ before, isBlank c = true) ∧ ∀ c ∈ after, isBlank c = true

/-- A text neither begins nor ends with a blank. -/
def Bare (cs : List Char) : Prop :=
  (∀ c ∈ cs.head?, isBlank c = false) ∧ ∀ c ∈ cs.getLast?, isBlank c = false

theorem Padded.refl (cs : List Char) : Padded cs cs := ⟨[], [], by simp, nofun, nofun⟩

theorem Padded.sublist (h : Padded inner outer) : inner.Sublist outer := by
  obtain ⟨before, after, rfl, _⟩ := h
  exact (List.sublist_append_right before inner).trans (List.sublist_append_left _ after)

theorem Bare.of_no_blank (h : ∀ c ∈ cs, isBlank c = false) : Bare cs :=
  ⟨fun c hc => h c (List.mem_of_mem_head? hc), fun c hc => h c (List.mem_of_mem_getLast? hc)⟩

/-! ## Trimming -/

theorem trimChars_eq_rdropWhile (cs : List Char) :
    trimChars cs = (cs.dropWhile isBlank).rdropWhile isBlank := rfl

/-- Blanks are taken off. -/
theorem padded_trimChars (cs : List Char) : Padded (trimChars cs) cs := by
  have hleft := List.takeWhile_append_dropWhile (p := isBlank) (l := cs)
  have hright := congrArg List.reverse
    (List.takeWhile_append_dropWhile (p := isBlank) (l := (cs.dropWhile isBlank).reverse))
  rw [List.reverse_append, List.reverse_reverse] at hright
  refine ⟨cs.takeWhile isBlank, ((cs.dropWhile isBlank).reverse.takeWhile isBlank).reverse, ?_,
    fun c => List.mem_takeWhile_imp, fun c hc => List.mem_takeWhile_imp (List.mem_reverse.1 hc)⟩
  unfold trimChars
  rw [List.append_assoc, hright, hleft]

/-- All blanks at both ends are. -/
theorem bare_trimChars (cs : List Char) : Bare (trimChars cs) := by
  rw [trimChars_eq_rdropWhile]
  constructor
  · intro c hc
    -- what is taken off at the end leaves the beginning as it is
    obtain ⟨rest, hprefix⟩ := List.rdropWhile_prefix isBlank (cs.dropWhile isBlank)
    have hhead : (cs.dropWhile isBlank).head? = some c := by
      rw [← hprefix, List.head?_append, hc]
      rfl
    have hnot := List.head?_dropWhile_not isBlank cs
    rw [hhead] at hnot
    exact hnot
  · intro c hc
    obtain ⟨hne, rfl⟩ := List.mem_getLast?_eq_getLast hc
    simpa using List.rdropWhile_last_not isBlank (cs.dropWhile isBlank) hne

theorem dropWhile_of_head {cs : List Char} (h : ∀ c ∈ cs.head?, isBlank c = false) :
    cs.dropWhile isBlank = cs := by
  cases cs with
  | nil => rfl
  | cons c rest => exact List.dropWhile_cons_of_neg (by simp [h c rfl])

/-- Where there is no blank at either end there is nothing to take off. -/
theorem Bare.trimChars (h : Bare cs) : trimChars cs = cs := by
  unfold Text.trimChars
  rw [dropWhile_of_head h.1, dropWhile_of_head (by simpa using h.2), List.reverse_reverse]

/-- Trimming does not see blanks that are added. -/
theorem Padded.trimChars (h : Padded inner outer) : trimChars outer = trimChars inner := by
  obtain ⟨before, after, rfl, hbefore, hafter⟩ := h
  have hgone : after.dropWhile isBlank = [] := List.dropWhile_eq_nil_iff.2 hafter
  have hreverse : ∀ c ∈ after.reverse, isBlank c = true := fun c hc => hafter c (List.mem_reverse.1 hc)
  unfold Text.trimChars
  rw [List.append_assoc, List.dropWhile_append_of_pos hbefore, List.dropWhile_append]
  split
  · rename_i hempty
    rw [hgone, List.isEmpty_iff.1 hempty]
  · rw [List.reverse_append, List.dropWhile_append_of_pos hreverse]

/-- **Trimming gives the inside of a text**, of which there is one. -/
theorem trimChars_eq_iff : trimChars cs = inner ↔ Padded inner cs ∧ Bare inner := by
  constructor
  · rintro rfl
    exact ⟨padded_trimChars cs, bare_trimChars cs⟩
  · rintro ⟨hpadded, hbare⟩
    rw [hpadded.trimChars, hbare.trimChars]

/-! ## Whole texts -/

theorem toList_trim (s : String) : (trim s).toList = trimChars s.toList := String.toList_ofList

theorem trim_padded {s t : String} (h : Padded s.toList t.toList) : trim t = trim s :=
  congrArg String.ofList h.trimChars

theorem trim_eq_self {s : String} (h : Bare s.toList) : trim s = s := by
  unfold trim
  rw [h.trimChars, String.ofList_toList]

theorem bare_trim (s : String) : Bare (trim s).toList := by
  rw [toList_trim]
  exact bare_trimChars s.toList

@[simp] theorem trim_trim (s : String) : trim (trim s) = trim s := trim_eq_self (bare_trim s)

/-- Nothing is left of a text exactly if it holds nothing but blanks. -/
theorem trim_eq_empty_iff {s : String} : trim s = "" ↔ ∀ c ∈ s.toList, isBlank c = true := by
  have hlist : trim s = "" ↔ trimChars s.toList = [] := by
    rw [← String.toList_inj, toList_trim]
    rfl
  rw [hlist, trimChars_eq_iff]
  constructor
  · rintro ⟨⟨before, after, hsplit, hbefore, hafter⟩, _⟩ c hc
    rw [hsplit, List.append_nil, List.mem_append] at hc
    exact hc.elim (hbefore c) (hafter c)
  · intro hall
    exact ⟨⟨s.toList, [], by simp, hall, nofun⟩, nofun, nofun⟩

theorem isBlankText_iff {s : String} : isBlankText s = true ↔ trim s = "" := by
  rw [trim_eq_empty_iff]
  exact List.all_eq_true

end Changefeed.Text
