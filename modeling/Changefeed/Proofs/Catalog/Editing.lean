import Changefeed.Catalog
import Changefeed.Proofs.Action

/-!
# Editing a catalog

Tables are declared, declared again and taken out, in any order and with whatever
comes from outside; a declaration that is refused leaves the catalog as it was.
Whatever was done to it, the columns that a catalog gives for a table are columns
that could be declared: at least one, and none twice (`Proper`).
-/

namespace Changefeed.Catalog

/-- What is done to a catalog. -/
inductive Edit where
  | declare (table columns : Value)
  | unregister (table : Text)

/-- An edit as an action. -/
def Edit.act : Edit → Act Catalog Unit
  | .declare table columns => Catalog.declare table columns
  | .unregister table => .update fun c => c.unregister table

/-- A catalog after edits, of which some may have been refused. -/
def afterEdits (s : Logged Catalog) (edits : List Edit) : Logged Catalog :=
  edits.foldl (fun s e => e.act.after s) s

/-- Whether columns could be declared: there are some, and none twice. -/
def Declarable (columns : List Text) : Prop := columns ≠ [] ∧ columns.Nodup

/-- Every key has columns that could be declared. -/
def Proper (c : Catalog) : Prop := ∀ key columns, c.columns? key = some columns → Declarable columns

/-- Columns that nothing is wrong with could be declared. -/
theorem declarable_of_flaw {table : Value} {columns : List Text}
    (h : flaw? table columns = none) : Declarable columns := by
  unfold flaw? at h
  split at h
  · cases h
  · split at h
    · cases h
    · rename_i hempty
      split at h
      · cases h
      · rename_i htwice
        exact ⟨fun h => hempty (List.isEmpty_iff.2 h), Decidable.not_not.1 htwice⟩

theorem proper_empty : Proper empty := by
  intro key columns h
  cases h

theorem Proper.insert {columns : List Text} (h : Declarable columns) (key : TableKey)
    (table : Value) : (insert key table columns).Keeps Proper := by
  intro s hs key' columns' hget
  rcases Decidable.em (key = key') with rfl | hne
  · have hself : columns? ((Catalog.insert key table columns).after s).state key = some columns :=
      congrArg (Option.map Declaration.columns) (Keyed.get?_insert_self ..)
    rw [hself] at hget
    cases hget
    exact h
  · have hother : columns? ((Catalog.insert key table columns).after s).state key' =
        s.state.columns? key' :=
      congrArg (Option.map Declaration.columns) (Keyed.get?_insert_of_ne _ hne _)
    exact hs key' columns' (hother ▸ hget)

theorem Proper.register (table : Value) (columns : List Text) :
    (register table columns).Keeps Proper := by
  unfold Catalog.register
  cases hflaw : flaw? table columns with
  | some cause => exact .fail _
  | none =>
    exact .bind (.ofExcept _) fun _ => .bind .state fun _ =>
      Proper.insert (declarable_of_flaw hflaw) _ table

theorem Proper.unregister {c : Catalog} (h : c.Proper) (table : Text) :
    (c.unregister table).Proper := by
  intro key columns hget
  rcases Decidable.em (.text table = key) with rfl | hne
  · have hself : (c.unregister table).columns? (.text table) = none :=
      congrArg (Option.map Declaration.columns) (Keyed.get?_erase_self ..)
    rw [hself] at hget
    cases hget
  · have hother : (c.unregister table).columns? key = c.columns? key :=
      congrArg (Option.map Declaration.columns) (Keyed.get?_erase_of_ne _ hne)
    exact h key columns (hother ▸ hget)

/-- An edit keeps a catalog proper, whatever is declared and whether it is refused. -/
theorem Proper.edit (e : Edit) : e.act.Keeps Proper := by
  cases e with
  | declare table columns => exact .bind (.ofExcept _) fun _ => Proper.register table _
  | unregister table => exact fun _ h => Proper.unregister h table

theorem Proper.afterEdits {s : Logged Catalog} (h : s.state.Proper) (edits : List Edit) :
    (afterEdits s edits).state.Proper := by
  induction edits generalizing s with
  | nil => exact h
  | cons e rest ih => exact ih (Proper.edit e s h)

/-- The columns of a table of a proper catalog could be declared. -/
theorem Proper.columns {c : Catalog} (h : c.Proper) {table : Text} {columns : List Text}
    (hcolumns : c.columns table = .ok columns) : Declarable columns := by
  unfold Catalog.columns at hcolumns
  cases hget : c.columns? (.text table) with
  | none => rw [hget] at hcolumns; cases hcolumns
  | some _ => rw [hget] at hcolumns; cases hcolumns; exact h _ _ hget

end Changefeed.Catalog
