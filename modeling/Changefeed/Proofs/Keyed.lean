import Mathlib.Data.List.Nodup
import Changefeed.Keyed

/-!
# What keyed lists are made of

Pairs with distinct keys make the keyed list of just these pairs (`toList_ofList`),
and what a keyed list holds after many insertions is the last of them under each
key, or what it held before (`get?_insertMany`). Keys that are told apart as well by
other names may be replaced by them: the keyed list under the other names
(`relabelled`) takes insertions and erasures as the first one does.
-/

namespace Changefeed.Keyed

variable {κ α : Type} [DecidableEq κ]

theorem put_of_not_mem {k : κ} {a : α} {l : List (κ × α)} (h : k ∉ l.map Prod.fst) :
    put k a l = l ++ [(k, a)] := by
  induction l with
  | nil => rfl
  | cons e rest ih =>
    obtain ⟨k', a'⟩ := e
    simp only [List.map_cons, List.mem_cons, not_or] at h
    rw [put, if_neg (Ne.symm h.1), ih h.2]
    rfl

theorem drop_concat {k : κ} {a : α} {l : List (κ × α)} (h : k ∉ l.map Prod.fst) :
    drop k (l ++ [(k, a)]) = l := by
  induction l with
  | nil => exact if_pos rfl
  | cons e rest ih =>
    obtain ⟨k', a'⟩ := e
    simp only [List.map_cons, List.mem_cons, not_or] at h
    rw [List.cons_append, drop, if_neg (Ne.symm h.1), ih h.2]

/-- What was put under a new key and is taken away again leaves no trace. -/
theorem erase_insert {m : Keyed κ α} {k : κ} (h : m.get? k = none) (a : α) :
    (m.insert k a).erase k = m := by
  have hk : k ∉ m.toList.map Prod.fst := (find_eq_none_iff k m.toList).1 h
  refine ext ?_
  show drop k (put k a m.toList) = m.toList
  rw [put_of_not_mem hk, drop_concat hk]

theorem drop_of_not_mem {k : κ} {l : List (κ × α)} (h : k ∉ l.map Prod.fst) : drop k l = l := by
  induction l with
  | nil => rfl
  | cons e rest ih =>
    obtain ⟨k', a'⟩ := e
    simp only [List.map_cons, List.mem_cons, not_or] at h
    rw [drop, if_neg (Ne.symm h.1), ih h.2]

theorem erase_of_none {m : Keyed κ α} {k : κ} (h : m.get? k = none) : m.erase k = m :=
  ext (drop_of_not_mem ((find_eq_none_iff k m.toList).1 h))

theorem put_put (k : κ) (a : α) (l : List (κ × α)) : put k a (put k a l) = put k a l := by
  induction l with
  | nil => exact if_pos rfl
  | cons e rest ih =>
    obtain ⟨k', a'⟩ := e
    rw [put]
    by_cases h : k' = k
    · rw [if_pos h, put, if_pos rfl]
    · rw [if_neg h, put, if_neg h, ih]

/-- What was put under a key and is put there again is there already, and so is its absence. -/
theorem set_set (m : Keyed κ α) (k : κ) (o : Option α) : (m.set k o).set k o = m.set k o := by
  cases o with
  | none => exact erase_of_none (m.get?_erase_self k)
  | some a => exact ext (put_put k a m.toList)

theorem get?_set (m : Keyed κ α) (k j : κ) (o : Option α) :
    (m.set k o).get? j = if k = j then o else m.get? j := by
  cases o with
  | none => exact m.get?_erase k j
  | some a => exact m.get?_insert k j a

/-- Puts values under keys, or takes the keys away, one after the other. -/
def setMany (m : Keyed κ α) (pairs : List (κ × Option α)) : Keyed κ α :=
  pairs.foldl (fun m e => m.set e.1 e.2) m

theorem get?_setMany_of_not_mem (m : Keyed κ α) {pairs : List (κ × Option α)} {k : κ}
    (h : k ∉ pairs.map Prod.fst) : (m.setMany pairs).get? k = m.get? k := by
  induction pairs generalizing m with
  | nil => rfl
  | cons e rest ih =>
    rw [List.map_cons, List.mem_cons, not_or] at h
    show ((m.set e.1 e.2).setMany rest).get? k = _
    rw [ih (m.set e.1 e.2) h.2, get?_set, if_neg (Ne.symm h.1)]

/-- Under each of some distinct keys is what was put there, if anything was. -/
theorem get?_setMany (m : Keyed κ α) {pairs : List (κ × Option α)} (h : (pairs.map Prod.fst).Nodup)
    {e : κ × Option α} (he : e ∈ pairs) : (m.setMany pairs).get? e.1 = e.2 := by
  induction pairs generalizing m with
  | nil => cases he
  | cons e' rest ih =>
    rw [List.map_cons, List.nodup_cons] at h
    show ((m.set e'.1 e'.2).setMany rest).get? e.1 = e.2
    rcases List.mem_cons.1 he with rfl | he
    · rw [get?_setMany_of_not_mem _ h.1, get?_set, if_pos rfl]
    · exact ih (m.set e'.1 e'.2) h.2 he

theorem toList_insertMany (m : Keyed κ α) {pairs : List (κ × α)}
    (h : ((m.toList ++ pairs).map Prod.fst).Nodup) : (m.insertMany pairs).toList = m.toList ++ pairs := by
  induction pairs generalizing m with
  | nil => exact (List.append_nil _).symm
  | cons e rest ih =>
    have hput : (m.insert e.1 e.2).toList = m.toList ++ [e] := by
      refine put_of_not_mem ?_
      intro hmem
      rw [List.map_append, List.nodup_append] at h
      exact h.2.2 _ hmem _ List.mem_cons_self rfl
    have hrest := ih (m.insert e.1 e.2) (by rw [hput, List.append_assoc]; exact h)
    rw [hput, List.append_assoc] at hrest
    exact hrest

/-- Pairs with distinct keys stay as they are. -/
theorem toList_ofList {pairs : List (κ × α)} (h : (pairs.map Prod.fst).Nodup) :
    (ofList pairs).toList = pairs :=
  toList_insertMany empty h

theorem mem_put {k : κ} {a : α} {e : κ × α} {l : List (κ × α)} (h : e ∈ put k a l) :
    e = (k, a) ∨ e ∈ l := by
  induction l with
  | nil => exact .inl (List.mem_singleton.1 h)
  | cons e' rest ih =>
    obtain ⟨k', a'⟩ := e'
    rw [put] at h
    split at h
    · rcases List.mem_cons.1 h with h | h
      · exact .inl h
      · exact .inr (List.mem_cons_of_mem _ h)
    · rcases List.mem_cons.1 h with h | h
      · exact .inr (h ▸ List.mem_cons_self)
      · exact (ih h).imp_right (List.mem_cons_of_mem _)

/-- A keyed list holds nothing but what was inserted. -/
theorem mem_insertMany {m : Keyed κ α} {pairs : List (κ × α)} {e : κ × α}
    (h : e ∈ (m.insertMany pairs).toList) : e ∈ m.toList ∨ e ∈ pairs := by
  induction pairs generalizing m with
  | nil => exact .inl h
  | cons e' rest ih =>
    rcases ih (m := m.insert e'.1 e'.2) h with h | h
    · rcases mem_put h with h | h
      · exact .inr (h ▸ List.mem_cons_self)
      · exact .inl h
    · exact .inr (List.mem_cons_of_mem _ h)

theorem mem_ofList {pairs : List (κ × α)} {e : κ × α} (h : e ∈ (ofList pairs).toList) : e ∈ pairs :=
  (mem_insertMany h).resolve_left List.not_mem_nil

/-- Under each key is what was inserted last, or what was there before. -/
theorem get?_insertMany (m : Keyed κ α) {pairs : List (κ × α)} (h : (pairs.map Prod.fst).Nodup)
    (k : κ) : (m.insertMany pairs).get? k = (find k pairs).or (m.get? k) := by
  induction pairs generalizing m with
  | nil => rfl
  | cons e rest ih =>
    obtain ⟨k', a⟩ := e
    rw [List.map_cons, List.nodup_cons] at h
    show ((m.insert k' a).insertMany rest).get? k = _
    rw [ih (m.insert k' a) h.2, get?_insert, find]
    by_cases hk : k' = k
    · rw [if_pos hk, if_pos hk, (find_eq_none_iff k rest).2 (hk ▸ h.1)]
      rfl
    · rw [if_neg hk, if_neg hk]

theorem find_eq_some_iff {k : κ} {a : α} {l : List (κ × α)} (h : (l.map Prod.fst).Nodup) :
    find k l = some a ↔ (k, a) ∈ l := by
  induction l with
  | nil => simp [find]
  | cons e rest ih =>
    obtain ⟨k', a'⟩ := e
    rw [List.map_cons, List.nodup_cons] at h
    rw [find, List.mem_cons]
    by_cases hk : k' = k
    · subst hk
      have : (k', a) ∉ rest := fun hm => h.1 (List.mem_map.2 ⟨_, hm, rfl⟩)
      simp [this, eq_comm]
    · simp [hk, ih h.2, Ne.symm hk]

theorem get?_eq_some_iff (m : Keyed κ α) {k : κ} {a : α} : m.get? k = some a ↔ (k, a) ∈ m.toList :=
  find_eq_some_iff m.nodup

/-- The order of the pairs does not count for finding one. -/
theorem find_perm {l₁ l₂ : List (κ × α)} (hp : l₁.Perm l₂) (h : (l₁.map Prod.fst).Nodup) (k : κ) :
    find k l₁ = find k l₂ := by
  have h₂ : (l₂.map Prod.fst).Nodup := (hp.map Prod.fst).nodup_iff.1 h
  refine Option.ext fun a => ?_
  rw [find_eq_some_iff h, find_eq_some_iff h₂, hp.mem_iff]

theorem find_map {β : Type} (f : α → β) (k : κ) (l : List (κ × α)) :
    find k (l.map fun e => (e.1, f e.2)) = (find k l).map f := by
  induction l with
  | nil => rfl
  | cons e rest ih =>
    obtain ⟨k', a⟩ := e
    simp only [List.map_cons, find]
    split
    · rfl
    · exact ih

theorem keys_erase_sublist (m : Keyed κ α) (k : κ) : (m.erase k).keys.Sublist m.keys :=
  (drop_sublist k m.toList).map Prod.fst

theorem mem_keys_iff (m : Keyed κ α) (k : κ) : k ∈ m.keys ↔ ∃ a, m.get? k = some a := by
  rw [← Option.ne_none_iff_exists', ne_eq, get?_eq_none_iff, not_not]

/-! ## Other names for the keys -/

section Relabelled

variable {κ' β : Type} [DecidableEq κ'] {f : κ → κ'} (hf : Function.Injective f) (g : κ → α → β)
include hf

theorem find_relabelled (k : κ) (l : List (κ × α)) :
    find (f k) (l.map fun e => (f e.1, g e.1 e.2)) = (find k l).map (g k) := by
  induction l with
  | nil => rfl
  | cons e rest ih =>
    obtain ⟨k', a⟩ := e
    rw [List.map_cons, find, find]
    by_cases h : k' = k
    · subst h
      rw [if_pos rfl, if_pos rfl]
      rfl
    · rw [if_neg h, if_neg fun he => h (hf he), ih]

theorem put_relabelled (k : κ) (a : α) (l : List (κ × α)) :
    put (f k) (g k a) (l.map fun e => (f e.1, g e.1 e.2)) =
      (put k a l).map fun e => (f e.1, g e.1 e.2) := by
  induction l with
  | nil => rfl
  | cons e rest ih =>
    obtain ⟨k', a'⟩ := e
    rw [List.map_cons, put, put]
    by_cases h : k' = k
    · subst h
      rw [if_pos rfl, if_pos rfl]
      rfl
    · rw [if_neg h, if_neg fun he => h (hf he), ih]
      rfl

theorem drop_relabelled (k : κ) (l : List (κ × α)) :
    drop (f k) (l.map fun e => (f e.1, g e.1 e.2)) =
      (drop k l).map fun e => (f e.1, g e.1 e.2) := by
  induction l with
  | nil => rfl
  | cons e rest ih =>
    obtain ⟨k', a'⟩ := e
    rw [List.map_cons, drop, drop]
    by_cases h : k' = k
    · subst h
      rw [if_pos rfl, if_pos rfl]
    · rw [if_neg h, if_neg fun he => h (hf he), ih]
      rfl

omit [DecidableEq κ] [DecidableEq κ'] in
theorem nodup_relabelled {l : List (κ × α)} (h : (l.map Prod.fst).Nodup) :
    ((l.map fun e => (f e.1, g e.1 e.2)).map Prod.fst).Nodup := by
  have hkeys : (l.map fun e => (f e.1, g e.1 e.2)).map Prod.fst = (l.map Prod.fst).map f := by
    rw [List.map_map, List.map_map]
    rfl
  rw [hkeys]
  exact List.Nodup.map hf h

omit [DecidableEq κ] [DecidableEq κ'] in
/-- The same places under other names, with what each holds made from its key and value. -/
def relabelled (m : Keyed κ α) : Keyed κ' β :=
  ⟨m.toList.map fun e => (f e.1, g e.1 e.2), nodup_relabelled hf g m.nodup⟩

variable (m : Keyed κ α) (k : κ)

theorem get?_relabelled : (m.relabelled hf g).get? (f k) = (m.get? k).map (g k) :=
  find_relabelled hf g k m.toList

theorem insert_relabelled (a : α) :
    (m.relabelled hf g).insert (f k) (g k a) = (m.insert k a).relabelled hf g :=
  ext (put_relabelled hf g k a m.toList)

theorem erase_relabelled : (m.relabelled hf g).erase (f k) = (m.erase k).relabelled hf g :=
  ext (drop_relabelled hf g k m.toList)

end Relabelled

end Changefeed.Keyed
