import Mathlib.Data.List.Pairwise
import Mathlib.Data.Nat.Basic
import Changefeed.Change
import Changefeed.Proofs.Order

/-!
# Records

A change among others is a record if it lies beyond a given position and beyond
every change before it: the strict running maxima of the positions. The records
are what a stream at that position takes of the changes if it passes over the
others; what it takes before the first of the others is the ascent.

Both are defined by looking at each change and all before it, and computed by
keeping the maximum (`records_cons`, `ascent_cons`).
-/

namespace Changefeed.Change

/-- Whether there is a change in a place that lies beyond a position and beyond every change before
that place. -/
def isRecord (p : Position) (cs : List Change) (i : Nat) : Bool :=
  match cs[i]? with
  | none => false
  | some c => decide (p < c.position) && (cs.take i).all fun b => b.position < c.position

/-- The changes that lie beyond a position and beyond every change before them. -/
def records (p : Position) (cs : List Change) : List Change :=
  ((List.range cs.length).filter (isRecord p cs)).filterMap (cs[·]?)

/-- The changes before the first one that does not. -/
def ascent (p : Position) (cs : List Change) : List Change :=
  ((List.range cs.length).takeWhile (isRecord p cs)).filterMap (cs[·]?)

/-- The furthest of a position and some changes. -/
def furthest (p : Position) (cs : List Change) : Position := (cs.map position).foldl max p

variable {p : Position} {c : Change} {cs : List Change}

/-! ## One change after the other -/

theorem isRecord_zero : isRecord p (c :: cs) 0 = decide (p < c.position) := by
  simp [isRecord]

/-- Behind the first change, what is to be passed is the further of it and `p`. -/
theorem isRecord_succ :
    isRecord p (c :: cs) ∘ Nat.succ = isRecord (max p c.position) cs := by
  funext i
  show isRecord p (c :: cs) (i + 1) = _
  unfold isRecord
  rw [List.getElem?_cons_succ, List.take_succ_cons]
  cases cs[i]? with
  | none => rfl
  | some b =>
    have hmax : (decide (p < b.position) && decide (c.position < b.position)) =
        decide (max p c.position < b.position) := by
      rw [← Bool.decide_and]
      exact decide_eq_decide.2 max_lt_iff.symm
    dsimp only
    rw [List.all_cons, ← Bool.and_assoc, hmax]

/-- The places behind the first one, and what is there. -/
theorem filterMap_succ (is : List Nat) :
    (is.map Nat.succ).filterMap ((c :: cs)[·]?) = is.filterMap (cs[·]?) := by
  rw [List.filterMap_map]
  rfl

theorem records_cons :
    records p (c :: cs) =
      if p < c.position then c :: records c.position cs else records p cs := by
  unfold records
  rw [List.length_cons, List.range_succ_eq_map, List.filter_cons, isRecord_zero, List.filter_map,
    isRecord_succ]
  by_cases h : p < c.position
  · rw [if_pos (decide_eq_true h), if_pos h, max_eq_right (le_of_lt h)]
    exact congrArg (c :: ·) (filterMap_succ _)
  · rw [if_neg (by simpa using h), if_neg h, max_eq_left (not_lt.1 h)]
    exact filterMap_succ _

theorem ascent_cons :
    ascent p (c :: cs) = if p < c.position then c :: ascent c.position cs else [] := by
  unfold ascent
  rw [List.length_cons, List.range_succ_eq_map, List.takeWhile_cons, isRecord_zero,
    List.takeWhile_map, isRecord_succ]
  by_cases h : p < c.position
  · rw [if_pos (decide_eq_true h), if_pos h, max_eq_right (le_of_lt h)]
    exact congrArg (c :: ·) (filterMap_succ _)
  · rw [if_neg (by simpa using h), if_neg h]
    rfl

/-! ## Laws -/

theorem length_records_le : (records p cs).length ≤ cs.length := by
  refine le_trans (List.length_filterMap_le _ _) (le_trans (List.length_filter_le _ _) ?_)
  rw [List.length_range]

/-- The records lie beyond `p` and ascend. -/
theorem records_ascend : (p :: (records p cs).map position).Pairwise (· < ·) := by
  induction cs generalizing p with
  | nil => exact List.pairwise_singleton _ p
  | cons c cs ih =>
    rw [records_cons]
    split
    · rename_i h
      exact List.Pairwise.cons_cons_of_trans h ih
    · exact ih

/-- The last record is where the furthest of all changes is. -/
theorem furthest_records : furthest p (records p cs) = furthest p cs := by
  induction cs generalizing p with
  | nil => rfl
  | cons c cs ih =>
    rw [records_cons]
    split
    · rename_i h
      have hmax : max p c.position = c.position := max_eq_right (le_of_lt h)
      show furthest (max p c.position) _ = furthest (max p c.position) cs
      rw [hmax, ih]
    · rename_i h
      show _ = furthest (max p c.position) cs
      rw [max_eq_left (not_lt.1 h), ih]

/-- Of changes that ascend, the furthest is the last. -/
theorem furthest_of_ascending {q : Position} (h : (cs.map position).Pairwise (· < ·)) :
    furthest q cs = max q ((cs.map position).getLastD q) := by
  unfold furthest
  rcases List.eq_nil_or_concat (cs.map position) with hnil | ⟨ps, x, hcons⟩
  · rw [hnil]
    exact (max_self q).symm
  · rw [List.concat_eq_append] at hcons
    rw [hcons] at h ⊢
    have hle : ps.foldl max q ≤ max q x := by
      refine foldl_max_le.2 ⟨le_max_left q x, ?_⟩
      intro b hb
      have hlt : b < x := (List.pairwise_append.1 h).2.2 b hb x List.mem_cons_self
      exact le_trans (le_of_lt hlt) (le_max_right q x)
    have hge : q ≤ ps.foldl max q := (foldl_max_le.1 (le_refl _)).1
    rw [List.foldl_append, List.foldl_cons, List.foldl_nil, List.getLastD_concat]
    refine le_antisymm (max_le hle (le_max_right q x)) (max_le_max_right x hge)

/-- What the ascent takes are records. -/
theorem ascent_ascends : (p :: (ascent p cs).map position).Pairwise (· < ·) := by
  induction cs generalizing p with
  | nil => exact List.pairwise_singleton _ p
  | cons c cs ih =>
    rw [ascent_cons]
    split
    · rename_i h
      exact List.Pairwise.cons_cons_of_trans h ih
    · exact List.pairwise_singleton _ p

/-- Nothing stops the ascent exactly if every change is a record. -/
theorem ascent_eq_self_iff : ascent p cs = cs ↔ ∀ i < cs.length, isRecord p cs i = true := by
  induction cs generalizing p with
  | nil => simp [ascent]
  | cons c cs ih =>
    have hrest : (∀ i < cs.length, isRecord p (c :: cs) (i + 1) = true) ↔
        ∀ i < cs.length, isRecord (max p c.position) cs i = true := by
      rw [← isRecord_succ]
      rfl
    rw [List.length_cons, Nat.forall_lt_succ_left, hrest, isRecord_zero, ascent_cons]
    by_cases h : p < c.position
    · rw [if_pos h, max_eq_right (le_of_lt h), List.cons_inj_right, ih]
      simp [h]
    · rw [if_neg h]
      simp [h]

end Changefeed.Change
