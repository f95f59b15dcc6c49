import Mathlib.Data.List.Basic
import Changefeed.Disk.Path

/-!
# The texts of paths

Many texts denote one path, for empty names and the name `.` lead nowhere. What is
left once they are out can be written and read again: each name that a text gives
leads somewhere and holds no slash (`proper_ofText`), and a path of such names is
denoted by its own text (`Proper.ofText_text`), in front of which are as many slashes
as its anchor has. So reading the text of a path that was read changes nothing.
-/

namespace Changefeed.Path

/-! ## Parts between slashes -/

theorem segments_ne_nil (cs : List Char) : segments cs ≠ [] := by
  unfold segments
  split
  · exact List.cons_ne_nil _ _
  · exact List.cons_ne_nil _ _
  · split <;> exact List.cons_ne_nil _ _

theorem segments_slash (cs : List Char) : segments ('/' :: cs) = [] :: segments cs := rfl

theorem segments_cons {c : Char} (hc : c ≠ '/') {cs s : List Char} {rest : List (List Char)}
    (h : segments cs = s :: rest) : segments (c :: cs) = (c :: s) :: rest := by
  rw [segments, h]
  · rintro rfl
    exact hc rfl

theorem slash_not_mem_segments {cs s : List Char} (h : s ∈ segments cs) : '/' ∉ s := by
  induction cs generalizing s with
  | nil =>
    rw [List.mem_singleton.1 h]
    exact List.not_mem_nil
  | cons c cs ih =>
    by_cases hc : c = '/'
    · rw [hc, segments_slash, List.mem_cons] at h
      rcases h with rfl | h
      · exact List.not_mem_nil
      · exact ih h
    · obtain ⟨first, rest, hrest⟩ := List.exists_cons_of_ne_nil (segments_ne_nil cs)
      rw [segments_cons hc hrest, List.mem_cons] at h
      rcases h with rfl | h
      · rw [List.mem_cons, not_or]
        exact ⟨Ne.symm hc, ih (hrest ▸ List.mem_cons_self)⟩
      · exact ih (hrest ▸ List.mem_cons_of_mem _ h)

theorem segments_append_slash {name : List Char} (h : '/' ∉ name) (cs : List Char) :
    segments (name ++ '/' :: cs) = name :: segments cs := by
  induction name with
  | nil => exact segments_slash cs
  | cons c name ih =>
    rw [List.mem_cons, not_or] at h
    exact segments_cons (Ne.symm h.1) (ih h.2)

theorem segments_of_no_slash {name : List Char} (h : '/' ∉ name) : segments name = [name] := by
  induction name with
  | nil => rfl
  | cons c name ih =>
    rw [List.mem_cons, not_or] at h
    exact segments_cons (Ne.symm h.1) (ih h.2)

/-- Parts that were put together with slashes are the parts between them. -/
theorem segments_intercalate {names : List (List Char)} (hne : names ≠ [])
    (h : ∀ name ∈ names, '/' ∉ name) : segments (['/'].intercalate names) = names := by
  induction names with
  | nil => exact absurd rfl hne
  | cons name names ih =>
    have hname := h name List.mem_cons_self
    cases names with
    | nil => rw [List.intercalate_singleton, segments_of_no_slash hname]
    | cons next rest =>
      rw [List.intercalate_cons_cons, List.append_assoc, List.singleton_append,
        segments_append_slash hname,
        ih (List.cons_ne_nil next rest) fun n hn => h n (List.mem_cons_of_mem _ hn)]

/-! ## Paths that can be written -/

/-- Every name of a path leads somewhere, and none holds a slash. -/
def Proper (p : Path) : Prop := ∀ name ∈ p.names, leads name.toList = true ∧ '/' ∉ name.toList

theorem proper_ofText (s : String) : (ofText s).Proper := by
  intro name hname
  obtain ⟨part, hpart, rfl⟩ := List.mem_map.1 hname
  rw [List.mem_filter] at hpart
  rw [String.toList_ofList]
  exact ⟨hpart.2, slash_not_mem_segments hpart.1⟩

variable {p : Path}

/-- What stands behind the slashes in front begins with none. -/
theorem Proper.head_names (h : p.Proper) :
    ((['/'].intercalate (p.names.map String.toList)).head? ≠ some '/') := by
  cases hnames : p.names with
  | nil => nofun
  | cons name rest =>
    obtain ⟨hleads, hslash⟩ := h name (hnames ▸ List.mem_cons_self)
    obtain ⟨c, cs, hcs⟩ : ∃ c cs, name.toList = c :: cs := by
      refine List.exists_cons_of_ne_nil ?_
      intro hnil
      rw [hnil] at hleads
      cases hleads
    have hc : c ≠ '/' := by
      rintro rfl
      exact hslash (hcs ▸ List.mem_cons_self)
    rw [List.map_cons, hcs]
    cases rest <;> simpa using hc

/-- As many slashes are in front of a text as its anchor has. -/
theorem anchorOf_append {cs : List Char} (h : cs.head? ≠ some '/') (a : Anchor) :
    anchorOf (a.text.toList ++ cs) = a := by
  cases cs with
  | nil => cases a <;> rfl
  | cons c cs =>
    have hc : c ≠ '/' := by
      rintro rfl
      exact h rfl
    cases a <;> simp [anchorOf, Anchor.text, hc]

/-- The slashes in front give no names. -/
theorem filter_segments_append (a : Anchor) (cs : List Char) :
    (segments (a.text.toList ++ cs)).filter leads = (segments cs).filter leads := by
  cases a <;> rfl

/-- **A path is denoted by its text.** -/
theorem Proper.ofText_text (h : p.Proper) : ofText p.text = p := by
  unfold text
  split
  · rename_i hhere
    obtain ⟨anchor, names⟩ := p
    obtain ⟨rfl, rfl⟩ := hhere
    rfl
  · have htext : (p.anchor.text ++ "/".intercalate p.names).toList =
        p.anchor.text.toList ++ ['/'].intercalate (p.names.map String.toList) := by
      rw [String.toList_append, String.toList_intercalate]
      rfl
    have hnames : (segments (['/'].intercalate (p.names.map String.toList))).filter leads =
        p.names.map String.toList := by
      by_cases hnone : p.names = []
      · rw [hnone]
        rfl
      · rw [segments_intercalate (by simpa using hnone) (by simpa using fun n hn => (h n hn).2),
          List.filter_eq_self]
        simpa using fun n hn => (h n hn).1
    unfold ofText
    rw [htext, anchorOf_append h.head_names, filter_segments_append, hnames, List.map_map]
    simp [Function.comp_def]

end Changefeed.Path
