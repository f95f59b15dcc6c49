import Mathlib.Data.List.Nodup
import Changefeed.Change
import Changefeed.Proofs.Catalog.Editing
import Changefeed.Proofs.Keyed
import Changefeed.Proofs.Order
import Changefeed.Proofs.Text.Units

/-!
# What assembly makes of the images

Two things are said of the way from a log entry to a change. Nothing is lost and
nothing is made up: a row of the change, with what is marked as missing left out,
is the image it came from, with what was marked as missing in it left out, up to
the order. And the order is all that the log's own order of the columns could
have touched, but it touches nothing: entries that differ only in it become the
same change, or fail with the same fault.

The first rests on the declared columns being distinct, for the values of a row
are put beside the columns one by one, and of two values beside one name only
the later would be left. A catalog has no other columns (`Catalog.Proper`).
-/

namespace Changefeed

/-- What an image reports: its pairs but for those marked as missing. -/
def Image.reported (image : Image) : List (Text × Value) :=
  image.toList.filter fun e => !e.2.isMissing

/-- The row of a change on a side, column by column. -/
def Change.rowOn (c : Change) : Side → Option Image
  | .before => c.beforeRow
  | .after => c.afterRow

namespace LogEntry

/-! ## Rows -/

/-- Columns, each beside the value that an image has for it. -/
def beside (columns : List Text) (image : Image) : List (Text × Value) :=
  columns.map fun name => (name, (image.get? name).getD (.mark .missing))

theorem zip_align (columns : List Text) (image : Image) :
    columns.zip (align columns image) = beside columns image := by
  unfold align beside
  induction columns with
  | nil => rfl
  | cons name rest ih => rw [List.map_cons, List.zip_cons_cons, ih, List.map_cons]

theorem map_fst_beside (columns : List Text) (image : Image) :
    (beside columns image).map Prod.fst = columns := by
  unfold beside
  rw [List.map_map]
  exact List.map_id columns

/-- A row of distinct columns holds all of them, each with the value that the image has for it. -/
theorem toList_row {columns : List Text} (h : columns.Nodup) (image : Image) :
    (Change.row columns (align columns image)).toList = beside columns image := by
  unfold Change.row
  rw [zip_align]
  exact Keyed.toList_ofList (by rwa [map_fst_beside])

theorem keys_row {columns : List Text} (h : columns.Nodup) (image : Image) :
    (Change.row columns (align columns image)).keys = columns := by
  unfold Keyed.keys
  rw [toList_row h, map_fst_beside]

theorem mem_undeclared {columns : List Text} {image : Image} {name : Text} :
    name ∈ undeclared columns image ↔ name ∈ image.keys ∧ name ∉ columns := by
  unfold undeclared
  rw [List.mem_mergeSort, List.mem_filter, decide_eq_true_iff]

theorem undeclared_eq_nil_iff {columns : List Text} {image : Image} :
    undeclared columns image = [] ↔ ∀ name ∈ image.keys, name ∈ columns := by
  rw [List.eq_nil_iff_forall_not_mem]
  refine forall_congr' fun name => ?_
  rw [mem_undeclared, not_and, Decidable.not_not]

/-- Every pair of an image without undeclared columns has its place beside the declared ones. -/
theorem mem_beside {columns : List Text} {image : Image} (h : undeclared columns image = [])
    {e : Text × Value} (he : e ∈ image.toList) : e ∈ beside columns image := by
  have hname : e.1 ∈ columns := undeclared_eq_nil_iff.1 h e.1 (List.mem_map_of_mem he)
  refine List.mem_map.2 ⟨e.1, hname, ?_⟩
  rw [image.get?_eq_some_iff.2 he]
  rfl

/-- What stands beside a column without being marked as missing is in the image. -/
theorem mem_of_mem_beside {columns : List Text} {image : Image} {e : Text × Value}
    (he : e ∈ beside columns image) (hv : e.2.isMissing = false) : e ∈ image.toList := by
  obtain ⟨name, -, rfl⟩ := List.mem_map.1 he
  cases hget : image.get? name with
  | none =>
    rw [hget] at hv
    cases hv
  | some v => exact image.get?_eq_some_iff.1 hget

theorem nodup_reported (image : Image) : image.reported.Nodup :=
  (List.Nodup.of_map Prod.fst image.nodup).filter _

/-- A row reports what its image reports. -/
theorem reported_row {columns : List Text} (h : columns.Nodup) {image : Image}
    (hdeclared : undeclared columns image = []) :
    (Change.row columns (align columns image)).reported.Perm image.reported := by
  refine (List.perm_ext_iff_of_nodup (nodup_reported _) (nodup_reported _)).2 fun e => ?_
  unfold Image.reported
  rw [toList_row h, List.mem_filter, List.mem_filter, Bool.not_eq_true']
  exact and_congr_left fun hv => ⟨fun he => mem_of_mem_beside he hv, mem_beside hdeclared⟩

/-- No value beside the declared columns is marked as missing exactly if the image has one for
each that is not. -/
theorem imageComplete_align (columns : List Text) (image : Image) :
    Change.imageComplete (some (align columns image)) = true ↔
      ∀ name ∈ columns, ∃ v, image.get? name = some v ∧ v.isMissing = false := by
  unfold Change.imageComplete align
  rw [Bool.not_eq_true', List.any_eq_false, List.forall_mem_map]
  refine forall₂_congr fun name _ => ?_
  cases image.get? name with
  | none => simp [Value.isMissing]
  | some v => simp

/-! ## Changes -/

/-- Values are those of an image if the image has no undeclared columns. -/
theorem alignSide_ok {e : LogEntry} {columns : List Text} {side : Side}
    {values : Option (List Value)} (h : e.alignSide columns side = .ok values) :
    values = (e.image side).map (align columns) ∧
      ∀ image ∈ e.image side, undeclared columns image = [] := by
  unfold alignSide at h
  cases himage : e.image side with
  | none =>
    rw [himage] at h
    cases h
    exact ⟨rfl, fun _ hi => nomatch hi⟩
  | some image =>
    rw [himage] at h
    dsimp only at h
    split at h
    · rename_i hdeclared
      cases h
      refine ⟨rfl, fun image' hi => ?_⟩
      cases hi
      exact hdeclared
    · cases h

/-- A change has the position of its entry. -/
theorem assemble_position {catalog : Catalog} {e : LogEntry} {c : Change}
    (h : e.assemble catalog = .ok c) : c.position = e.position := by
  unfold assemble at h
  obtain ⟨columns, -, h⟩ := Fallible.bind_eq_ok h
  obtain ⟨kind, -, h⟩ := Fallible.bind_eq_ok h
  split at h
  · cases h
  · obtain ⟨before, -, h⟩ := Fallible.bind_eq_ok h
    obtain ⟨after, -, h⟩ := Fallible.bind_eq_ok h
    cases h
    rfl

/-- What a change was assembled from: the columns of its table, and an image per side that has no
others. -/
theorem assemble_ok {catalog : Catalog} {e : LogEntry} {c : Change}
    (h : e.assemble catalog = .ok c) :
    catalog.columns e.table = .ok c.columns ∧
      c.before = (e.image .before).map (align c.columns) ∧
      c.after = (e.image .after).map (align c.columns) ∧
      ∀ side, ∀ image ∈ e.image side, undeclared c.columns image = [] := by
  unfold assemble at h
  obtain ⟨columns, hcolumns, h⟩ := Fallible.bind_eq_ok h
  obtain ⟨kind, -, h⟩ := Fallible.bind_eq_ok h
  split at h
  · cases h
  · obtain ⟨before, hbefore, h⟩ := Fallible.bind_eq_ok h
    obtain ⟨after, hafter, h⟩ := Fallible.bind_eq_ok h
    cases h
    obtain ⟨hb, hbd⟩ := alignSide_ok hbefore
    obtain ⟨ha, had⟩ := alignSide_ok hafter
    refine ⟨hcolumns, hb, ha, fun side => ?_⟩
    cases side with
    | before => exact hbd
    | after => exact had

/-- The values of an image without undeclared columns. -/
theorem alignSide_declared {e : LogEntry} {columns : List Text} {side : Side}
    (h : ∀ image ∈ e.image side, undeclared columns image = []) :
    e.alignSide columns side = .ok ((e.image side).map (align columns)) := by
  unfold alignSide
  cases himage : e.image side with
  | none => rfl
  | some image => exact if_pos (h image himage)

/-- An entry of a declared table with the images of its kind and no undeclared columns is a
change. -/
theorem assemble_of_declared {catalog : Catalog} {e : LogEntry} {columns : List Text}
    {kind : ChangeKind} (hcolumns : catalog.columns e.table = .ok columns)
    (hkind : ChangeKind.ofValue e.kind = .ok kind) (hflaw : e.imageFlaw? kind = none)
    (hdeclared : ∀ side, ∀ image ∈ e.image side, undeclared columns image = []) :
    e.assemble catalog = .ok ⟨e.table, kind, e.position, columns,
      (e.image .before).map (align columns), (e.image .after).map (align columns)⟩ := by
  unfold assemble
  rw [hcolumns, hkind]
  dsimp only [Bind.bind, Except.bind]
  rw [hflaw]
  dsimp only
  rw [alignSide_declared (hdeclared .before), alignSide_declared (hdeclared .after)]

theorem rowOn_assembled {catalog : Catalog} {e : LogEntry} {c : Change}
    (h : e.assemble catalog = .ok c) (side : Side) :
    c.rowOn side =
      (e.image side).map fun image => Change.row c.columns (align c.columns image) := by
  obtain ⟨-, hbefore, hafter, -⟩ := assemble_ok h
  cases side with
  | before =>
    show c.before.map _ = _
    rw [hbefore, Option.map_map]
    rfl
  | after =>
    show c.after.map _ = _
    rw [hafter, Option.map_map]
    rfl

/-- A change is complete exactly if each image that it came from has all its columns. -/
theorem isComplete_assembled {catalog : Catalog} {e : LogEntry} {c : Change}
    (h : e.assemble catalog = .ok c) :
    c.isComplete = true ↔ ∀ side, ∀ image ∈ e.image side, ∀ name ∈ c.columns,
      ∃ v, image.get? name = some v ∧ v.isMissing = false := by
  have hside : ∀ side, Change.imageComplete ((e.image side).map (align c.columns)) = true ↔
      ∀ image ∈ e.image side, ∀ name ∈ c.columns,
        ∃ v, image.get? name = some v ∧ v.isMissing = false := by
    intro side
    cases e.image side with
    | none => exact ⟨fun _ _ hi => (nomatch hi), fun _ => rfl⟩
    | some image =>
      rw [Option.map_some, imageComplete_align]
      refine ⟨fun hall image' hi => ?_, fun hall => hall image rfl⟩
      cases hi
      exact hall
  obtain ⟨-, hbefore, hafter, -⟩ := assemble_ok h
  unfold Change.isComplete
  rw [Bool.and_eq_true, hbefore, hafter, hside, hside]
  refine ⟨?_, fun hall => ⟨hall .before, hall .after⟩⟩
  rintro ⟨hb, ha⟩ (_ | _)
  · exact hb
  · exact ha

/-! ## The order of the columns in the log -/

/-- Two entries that differ at most in the order in which their images list the columns. -/
structure Reordered (e e' : LogEntry) : Prop where
  table : e'.table = e.table
  kind : e'.kind = e.kind
  position : e'.position = e.position
  image : ∀ side, Option.Rel (fun i i' : Image => i.toList.Perm i'.toList)
    (e.image side) (e'.image side)

/-- The undeclared columns are listed in ascending order, and thus in one order only. -/
theorem undeclared_reordered {i i' : Image} (h : i.toList.Perm i'.toList) (columns : List Text) :
    undeclared columns i' = undeclared columns i := by
  have hle : ∀ l : List Text, (l.mergeSort fun a b => decide (a ≤ b)).Pairwise (· ≤ ·) := by
    intro l
    have htrans : ∀ a b c : Text, decide (a ≤ b) = true → decide (b ≤ c) = true →
        decide (a ≤ c) = true := fun a b c hab hbc =>
      decide_eq_true (Text.le_trans (of_decide_eq_true hab) (of_decide_eq_true hbc))
    have htotal : ∀ a b : Text, (decide (a ≤ b) || decide (b ≤ a)) = true := by
      intro a b
      simpa using Text.le_total a b
    exact (List.pairwise_mergeSort htrans htotal l).imp fun h => of_decide_eq_true h
  have hkeys : (i'.keys.filter (· ∉ columns)).Perm (i.keys.filter (· ∉ columns)) :=
    (h.symm.map Prod.fst).filter _
  unfold undeclared
  exact List.Perm.eq_of_pairwise (fun a b _ _ => Text.le_antisymm) (hle _) (hle _)
    ((List.mergeSort_perm _ _).trans (hkeys.trans (List.mergeSort_perm _ _).symm))

theorem align_reordered {i i' : Image} (h : i.toList.Perm i'.toList) (columns : List Text) :
    align columns i' = align columns i := by
  unfold align
  refine List.map_congr_left fun name _ => ?_
  have hget : i'.get? name = i.get? name := (Keyed.find_perm h i.nodup name).symm
  rw [hget]

variable {e e' : LogEntry}

theorem Reordered.isSome (h : Reordered e e') (side : Side) :
    (e'.image side).isSome = (e.image side).isSome := by
  have himage := h.image side
  generalize e.image side = i, e'.image side = i' at himage
  cases himage with
  | none => rfl
  | some _ => rfl

theorem Reordered.imageFlaw (h : Reordered e e') (k : ChangeKind) :
    e'.imageFlaw? k = e.imageFlaw? k := by
  have hbefore : e'.before.isSome = e.before.isSome := h.isSome .before
  have hafter : e'.after.isSome = e.after.isSome := h.isSome .after
  unfold imageFlaw?
  rw [← Option.not_isSome, ← Option.not_isSome, ← Option.not_isSome, ← Option.not_isSome,
    hbefore, hafter, h.table, h.position]

theorem Reordered.alignSide (h : Reordered e e') (columns : List Text) (side : Side) :
    e'.alignSide columns side = e.alignSide columns side := by
  unfold LogEntry.alignSide
  have himage := h.image side
  generalize e.image side = i, e'.image side = i' at himage
  cases himage with
  | none => rfl
  | some hperm =>
    dsimp only
    rw [undeclared_reordered hperm, align_reordered hperm, h.table]

/-- The order in which the images list the columns decides nothing. -/
theorem Reordered.assemble (h : Reordered e e') (catalog : Catalog) :
    e'.assemble catalog = e.assemble catalog := by
  unfold LogEntry.assemble
  simp only [h.table, h.kind, h.position, h.imageFlaw, h.alignSide]

/-! ## Both together -/

/-- **What is assembled says what the log said, in declared order, and nothing of the log's own
order.** Whatever was done to a catalog, a change that is assembled by it has the columns of its
table, a row for each image and no other, and each row has just these columns in just this order
and reports what the image reports. It is complete exactly if each image has a value for each
column. Entries that differ in the order of their columns only are assembled to one change, or fail
with one fault. -/
theorem assembly_faithful (edits : List Catalog.Edit) :
    let catalog := (Catalog.afterEdits ⟨Catalog.empty, []⟩ edits).state
    (∀ (e : LogEntry) (c : Change), e.assemble catalog = .ok c →
      catalog.columns e.table = .ok c.columns ∧
      (∀ side, Option.Rel
        (fun image row => row.keys = c.columns ∧ row.reported.Perm image.reported)
        (e.image side) (c.rowOn side)) ∧
      (c.isComplete = true ↔ ∀ side, ∀ image ∈ e.image side, ∀ name ∈ c.columns,
        ∃ v, image.get? name = some v ∧ v.isMissing = false)) ∧
    ∀ e e' : LogEntry, Reordered e e' → e'.assemble catalog = e.assemble catalog := by
  intro catalog
  refine ⟨fun e c h => ?_, fun e e' h => h.assemble catalog⟩
  obtain ⟨hcolumns, -, -, hdeclared⟩ := assemble_ok h
  have hnodup : c.columns.Nodup :=
    ((Catalog.proper_empty.afterEdits edits).columns hcolumns).2
  refine ⟨hcolumns, fun side => ?_, isComplete_assembled h⟩
  have hrow := rowOn_assembled h side
  cases himage : e.image side with
  | none =>
    rw [hrow, himage]
    exact .none
  | some image =>
    rw [hrow, himage]
    exact .some ⟨keys_row hnodup image, reported_row hnodup (hdeclared side image himage)⟩

/-- A table is declared twice, and a third declaration is refused. A change whose later image lacks
a column is assembled in the order of the second declaration, however the log lists it. -/
theorem assembly_faithful_redeclared :
    let edits : List Catalog.Edit := [.declare (.text "t") (.list [.text "a"]),
      .declare (.text "t") (.list [.text "b", .text "a"]),
      .declare (.text "t") (.list [.text "a", .text "a"])]
    let catalog := (Catalog.afterEdits ⟨Catalog.empty, []⟩ edits).state
    let before : List (Text × Value) := [("a", .int 1), ("b", .int 2)]
    let after : List (Text × Value) := [("a", .int 3)]
    let e : LogEntry := ⟨"t", .mark (.kind .update), .known 7, some (Keyed.ofList before),
      some (Keyed.ofList after)⟩
    let e' : LogEntry := { e with before := some (Keyed.ofList before.reverse) }
    ∃ c, e.assemble catalog = .ok c ∧ e'.assemble catalog = .ok c ∧ c.columns = ["b", "a"] ∧
      (∀ row ∈ c.afterRow, row.keys = ["b", "a"] ∧ row.reported.Perm after) ∧
      c.isComplete = false := by
  intro edits catalog before after e e'
  have hcolumns : catalog.columns e.table = .ok ["b", "a"] := rfl
  have hassembled := assemble_of_declared hcolumns (e := e) rfl rfl (by
    rintro (_ | _) image ⟨⟩ <;> exact undeclared_eq_nil_iff.2 (by decide))
  obtain ⟨hall, horder⟩ := assembly_faithful edits
  obtain ⟨-, hrows, hcomplete⟩ := hall e _ hassembled
  have hreordered : Reordered e e' := by
    refine ⟨rfl, rfl, rfl, ?_⟩
    rintro (_ | _)
    · exact .some (List.reverse_perm before).symm
    · exact .some (.refl _)
  refine ⟨_, hassembled, (horder e e' hreordered).trans hassembled, rfl, ?_, ?_⟩
  · rintro row ⟨⟩
    obtain ⟨hkeys, hreported⟩ := hrows .after
    exact ⟨hkeys, hreported⟩
  · refine Bool.eq_false_iff.2 fun htrue => ?_
    obtain ⟨v, hv, -⟩ := hcomplete.1 htrue .after _ rfl "b" List.mem_cons_self
    cases hv

end LogEntry

end Changefeed
