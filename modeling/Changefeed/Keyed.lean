/-!
# Keyed lists

A `Keyed κ α` holds values under distinct keys, in the order in which the keys
first came. Putting a value under a known key replaces the value and keeps the
place; a key that was erased and comes back goes to the end. Everything in this
library that is looked up by name and listed in order is one of these: the
tables of a catalog, the entries of a checkpoint, the columns of an image, the
files of a disk.
-/

namespace Changefeed

variable {κ α : Type} [DecidableEq κ]

namespace Keyed

/-! ## On bare lists of pairs -/

/-- The value under `k`, if there is one. -/
def find (k : κ) : List (κ × α) → Option α
  | [] => none
  | (k', a) :: rest => if k' = k then some a else find k rest

/-- The pairs with `a` put under `k`: in the place of `k`, or at the end. -/
def put (k : κ) (a : α) : List (κ × α) → List (κ × α)
  | [] => [(k, a)]
  | (k', a') :: rest => if k' = k then (k, a) :: rest else (k', a') :: put k a rest

/-- The pairs without the one under `k`. -/
def drop (k : κ) : List (κ × α) → List (κ × α)
  | [] => []
  | (k', a') :: rest => if k' = k then rest else (k', a') :: drop k rest

theorem keys_put (k : κ) (a : α) (l : List (κ × α)) :
    (put k a l).map Prod.fst =
      if k ∈ l.map Prod.fst then l.map Prod.fst else l.map Prod.fst ++ [k] := by
  induction l with
  | nil => simp [put]
  | cons e rest ih =>
    obtain ⟨k', a'⟩ := e
    by_cases h : k' = k
    · simp [put, h]
    · have h' : ¬k = k' := fun e => h e.symm
      simp only [put, if_neg h, List.map_cons, ih, List.mem_cons, h', false_or]
      split <;> simp

theorem drop_sublist (k : κ) (l : List (κ × α)) : (drop k l).Sublist l := by
  induction l with
  | nil => exact .slnil
  | cons e rest ih =>
    obtain ⟨k', a'⟩ := e
    by_cases h : k' = k
    · simp [drop, h]
    · simpa [drop, h] using ih

theorem nodup_put (k : κ) (a : α) {l : List (κ × α)} (h : (l.map Prod.fst).Nodup) :
    ((put k a l).map Prod.fst).Nodup := by
  rw [keys_put]
  split
  · exact h
  · rename_i hk
    refine List.nodup_append.2 ⟨h, by simp, ?_⟩
    intro x hx y hy
    rw [List.mem_singleton.1 hy]
    rintro rfl
    exact hk hx

theorem nodup_drop (k : κ) {l : List (κ × α)} (h : (l.map Prod.fst).Nodup) :
    ((drop k l).map Prod.fst).Nodup :=
  List.Nodup.sublist ((drop_sublist k l).map Prod.fst) h

theorem find_put_self (k : κ) (a : α) (l : List (κ × α)) : find k (put k a l) = some a := by
  induction l with
  | nil => simp [put, find]
  | cons e rest ih =>
    obtain ⟨k', a'⟩ := e
    by_cases h : k' = k <;> simp [put, find, h, ih]

theorem find_put_of_ne {k j : κ} (h : k ≠ j) (a : α) (l : List (κ × α)) :
    find j (put k a l) = find j l := by
  induction l with
  | nil => simp [put, find, h]
  | cons e rest ih =>
    obtain ⟨k', a'⟩ := e
    by_cases hk : k' = k
    · subst hk
      simp [put, find, h]
    · simp only [put, if_neg hk, find, ih]

theorem find_eq_none_iff (k : κ) (l : List (κ × α)) :
    find k l = none ↔ k ∉ l.map Prod.fst := by
  induction l with
  | nil => simp [find]
  | cons e rest ih =>
    obtain ⟨k', a'⟩ := e
    by_cases h : k' = k
    · simp [find, h]
    · have h' : ¬k = k' := fun e => h e.symm
      simp [find, h, h', ih]

theorem find_drop_self {k : κ} {l : List (κ × α)} (h : (l.map Prod.fst).Nodup) :
    find k (drop k l) = none := by
  induction l with
  | nil => rfl
  | cons e rest ih =>
    obtain ⟨k', a'⟩ := e
    simp only [List.map_cons, List.nodup_cons] at h
    by_cases hk : k' = k
    · subst hk
      simpa [drop, find_eq_none_iff] using h.1
    · simp [drop, find, hk, ih h.2]

theorem find_drop_of_ne {k j : κ} (h : k ≠ j) (l : List (κ × α)) :
    find j (drop k l) = find j l := by
  induction l with
  | nil => rfl
  | cons e rest ih =>
    obtain ⟨k', a'⟩ := e
    by_cases hk : k' = k
    · subst hk
      simp [drop, find, h]
    · simp only [drop, if_neg hk, find, ih]

end Keyed

/-! ## With the keys distinct -/

/-- Values under distinct keys, in the order in which the keys first came. -/
structure Keyed (κ α : Type) where
  /-- The pairs, oldest key first. -/
  toList : List (κ × α)
  /-- No key occurs twice. -/
  nodup : (toList.map Prod.fst).Nodup

namespace Keyed

/-- Nothing under any key. -/
def empty : Keyed κ α := ⟨[], List.nodup_nil⟩

instance : Inhabited (Keyed κ α) := ⟨empty⟩

/-- The keys, oldest first. -/
def keys (m : Keyed κ α) : List κ := m.toList.map Prod.fst

/-- The value under a key. -/
def get? (m : Keyed κ α) (k : κ) : Option α := find k m.toList

/-- Whether there is a value under a key. -/
def contains (m : Keyed κ α) (k : κ) : Bool := (m.get? k).isSome

/-- Puts a value under a key; a known key keeps its place. -/
def insert (m : Keyed κ α) (k : κ) (a : α) : Keyed κ α := ⟨put k a m.toList, nodup_put k a m.nodup⟩

/-- Takes a key and its value away. -/
def erase (m : Keyed κ α) (k : κ) : Keyed κ α := ⟨drop k m.toList, nodup_drop k m.nodup⟩

/-- Puts a value under a key, or takes the key away if there is none to put. -/
def set (m : Keyed κ α) (k : κ) : Option α → Keyed κ α
  | some a => m.insert k a
  | none => m.erase k

/-- Puts pairs in, one after the other: of two under one key the later one counts. -/
def insertMany (m : Keyed κ α) (pairs : List (κ × α)) : Keyed κ α :=
  pairs.foldl (fun m e => m.insert e.1 e.2) m

/-- The keyed list of some pairs: a repeated key has its first place and its last value. -/
def ofList (pairs : List (κ × α)) : Keyed κ α := insertMany empty pairs

omit [DecidableEq κ] in
@[ext] theorem ext {m n : Keyed κ α} (h : m.toList = n.toList) : m = n := by
  cases m; cases n; cases h; rfl

@[simp] theorem get?_empty (k : κ) : (empty : Keyed κ α).get? k = none := rfl

@[simp] theorem get?_insert_self (m : Keyed κ α) (k : κ) (a : α) : (m.insert k a).get? k = some a :=
  find_put_self k a m.toList

theorem get?_insert_of_ne (m : Keyed κ α) {k j : κ} (h : k ≠ j) (a : α) :
    (m.insert k a).get? j = m.get? j :=
  find_put_of_ne h a m.toList

/-- What is under each key after a value was put in. -/
theorem get?_insert (m : Keyed κ α) (k j : κ) (a : α) :
    (m.insert k a).get? j = if k = j then some a else m.get? j := by
  split
  · rename_i h; subst h; simp
  · rename_i h; exact m.get?_insert_of_ne h a

@[simp] theorem get?_erase_self (m : Keyed κ α) (k : κ) : (m.erase k).get? k = none :=
  find_drop_self m.nodup

theorem get?_erase_of_ne (m : Keyed κ α) {k j : κ} (h : k ≠ j) : (m.erase k).get? j = m.get? j :=
  find_drop_of_ne h m.toList

/-- What is under each key after one was taken away. -/
theorem get?_erase (m : Keyed κ α) (k j : κ) :
    (m.erase k).get? j = if k = j then none else m.get? j := by
  split
  · rename_i h; subst h; simp
  · rename_i h; exact m.get?_erase_of_ne h

theorem get?_eq_none_iff (m : Keyed κ α) (k : κ) : m.get? k = none ↔ k ∉ m.keys :=
  find_eq_none_iff k m.toList

/-- A known key keeps its place, a new one goes to the end. -/
theorem keys_insert (m : Keyed κ α) (k : κ) (a : α) :
    (m.insert k a).keys = if k ∈ m.keys then m.keys else m.keys ++ [k] :=
  keys_put k a m.toList

end Keyed

end Changefeed
