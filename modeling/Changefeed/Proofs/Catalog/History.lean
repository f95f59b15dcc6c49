import Mathlib.Data.List.Induction
import Changefeed.Proofs.Catalog.Editing
import Changefeed.Proofs.Text.Units
import Changefeed.Proofs.Keyed

/-!
# What a history of amendments leaves in a catalog

The log names tables by texts, and so do those who declare and withdraw them. What
such a catalog holds can be told from the history of its amendments alone, refused
ones included, without running any: the columns of a table are those of the last
declaration of it that could be made, unless it was withdrawn since (`InForce`), and
the tables stand in the order of the declarations that brought them (`BroughtAt`).
A declaration that only replaces the columns of a table does not bring it, so the
table keeps its place; after a withdrawal the next one brings it anew.

A catalog that knows its tables by texts is a keyed list of columns (`named`), and
an amendment is an insertion into that or an erasure. So one induction over the
history, on keyed lists, settles all that can be asked of the catalog.
-/

namespace Changefeed.Catalog

/-! ## Tables that are named by texts -/

/-- The declaration of a table that was first named by a text. -/
def declarationOf (table : Text) (columns : List Text) : Declaration := ⟨.text table, columns⟩

theorem text_injective : Function.Injective TableKey.text := fun _ _ => TableKey.text.inj

/-- The catalog of tables that are named by texts. -/
def named (m : Keyed Text (List Text)) : Catalog := ⟨m.relabelled text_injective declarationOf⟩

section Named

variable (m : Keyed Text (List Text)) (table : Text) (columns : List Text)

theorem get?_named :
    (named m).declarations.get? (.text table) = (m.get? table).map (declarationOf table) :=
  m.get?_relabelled text_injective declarationOf table

theorem columns?_named : (named m).columns? (.text table) = m.get? table := by
  unfold columns?
  rw [get?_named]
  cases m.get? table <;> rfl

theorem tables_named : (named m).tables = m.keys.map .text := by
  unfold tables named Keyed.relabelled Keyed.keys
  rw [List.map_map, List.map_map]
  rfl

theorem unregister_named : (named m).unregister table = named (m.erase table) :=
  congrArg Catalog.mk (m.erase_relabelled text_injective declarationOf table)

theorem insert_named (ns : List Notice) :
    ((insert (.text table) (.text table) columns).after ⟨named m, ns⟩).state =
      named (m.insert table columns) := by
  -- a table that is there was named by the same text
  have hfirst : (((named m).declarations.get? (.text table)).map Declaration.table).getD
      (.text table) = .text table := by
    rw [get?_named]
    cases m.get? table <;> rfl
  show Catalog.mk ((named m).declarations.insert (.text table)
    ⟨(((named m).declarations.get? (.text table)).map Declaration.table).getD (.text table),
      columns⟩) = _
  rw [hfirst]
  exact congrArg Catalog.mk (m.insert_relabelled text_injective declarationOf table columns)

end Named

/-! ## Amendments -/

/-- What is done to a catalog whose tables are named by texts. -/
inductive Amendment where
  | declare (table : Text) (columns : List Text)
  | withdraw (table : Text)

/-- An amendment as an edit. -/
def Amendment.edit : Amendment → Edit
  | declare table columns => .declare (.text table) (.list (columns.map .text))
  | withdraw table => .unregister table

/-- Whether a table can be declared with columns. -/
def CanDeclare (table : Text) (columns : List Text) : Prop := table ≠ "" ∧ Declarable columns

instance (table : Text) (columns : List Text) : Decidable (CanDeclare table columns) :=
  inferInstanceAs (Decidable (table ≠ "" ∧ columns ≠ [] ∧ columns.Nodup))

theorem not_canDeclare {table : Text} {columns : List Text} :
    ¬CanDeclare table columns ↔ table = "" ∨ columns = [] ∨ ¬columns.Nodup := by
  unfold CanDeclare Declarable
  tauto

section Declare

variable {table : Text} {columns : List Text}

theorem flaw?_of_canDeclare (h : CanDeclare table columns) : flaw? (.text table) columns = none := by
  obtain ⟨htable, hsome, htwice⟩ := h
  have htold : Value.saysSomething (.text table) = true := by
    simpa [Value.saysSomething, Data.saysSomething, ← Text.isEmpty_iff] using htable
  have hempty : columns.isEmpty = false := by simpa using hsome
  unfold flaw?
  rw [htold, hempty]
  simpa using htwice

theorem flaw?_of_not_canDeclare (h : ¬CanDeclare table columns) :
    ∃ cause, flaw? (.text table) columns = some cause := by
  rw [← Option.ne_none_iff_exists']
  intro hflaw
  refine h ⟨?_, declarable_of_flaw hflaw⟩
  rintro rfl
  cases hflaw

theorem declare_run (table : Text) (columns : List Text) (s : Logged Catalog) :
    declare (.text table) (.list (columns.map .text)) s = register (.text table) columns s := by
  have hnames : columnNames (.list (columns.map .text)) = .ok columns := by
    show Except.ok ((columns.map .text).map Data.asText) = _
    rw [List.map_map]
    exact congrArg Except.ok (List.map_id columns)
  unfold declare
  rw [hnames]
  rfl

/-- A table that can be declared is. -/
theorem declare_of_canDeclare (h : CanDeclare table columns) (s : Logged Catalog) :
    declare (.text table) (.list (columns.map .text)) s =
      insert (.text table) (.text table) columns s := by
  rw [declare_run]
  unfold register
  rw [flaw?_of_canDeclare h]
  rfl

/-- A declaration that cannot be made is refused, and nothing has happened. -/
theorem declare_of_not_canDeclare (h : ¬CanDeclare table columns) (s : Logged Catalog) :
    ∃ cause, declare (.text table) (.list (columns.map .text)) s =
      .error (.argument cause) s := by
  obtain ⟨cause, hflaw⟩ := flaw?_of_not_canDeclare h
  refine ⟨cause, ?_⟩
  rw [declare_run]
  unfold register
  rw [hflaw]
  rfl

end Declare

/-- What an amendment does to the columns of the tables. -/
def Amendment.apply (m : Keyed Text (List Text)) : Amendment → Keyed Text (List Text)
  | declare table columns => if CanDeclare table columns then m.insert table columns else m
  | withdraw table => m.erase table

/-- The columns of the tables after a history of amendments. -/
def contents (history : List Amendment) : Keyed Text (List Text) :=
  history.foldl Amendment.apply .empty

theorem contents_concat (history : List Amendment) (a : Amendment) :
    contents (history ++ [a]) = a.apply (contents history) := by
  unfold contents
  rw [List.foldl_append]
  rfl

/-- On tables that are named by texts an edit is what its amendment does. -/
theorem edit_after_named (a : Amendment) {s : Logged Catalog} {m : Keyed Text (List Text)}
    (h : s.state = named m) : (a.edit.act.after s).state = named (a.apply m) := by
  obtain ⟨c, ns⟩ := s
  subst h
  cases a with
  | withdraw table => exact unregister_named m table
  | declare table columns =>
    show ((declare (.text table) (.list (columns.map .text))).after ⟨named m, ns⟩).state =
      named (if CanDeclare table columns then m.insert table columns else m)
    by_cases hcan : CanDeclare table columns
    · rw [Act.after_congr (declare_of_canDeclare hcan _), insert_named, if_pos hcan]
    · obtain ⟨cause, hrefused⟩ := declare_of_not_canDeclare hcan ⟨named m, ns⟩
      rw [Act.after_of_error hrefused, if_neg hcan]

/-- The catalog after a history has just what the history leaves. -/
theorem afterEdits_named (history : List Amendment) :
    (afterEdits ⟨empty, []⟩ (history.map Amendment.edit)).state = named (contents history) := by
  induction history using List.reverseRecOn with
  | nil => rfl
  | append_singleton history a ih =>
    rw [contents_concat, List.map_append]
    unfold afterEdits at ih ⊢
    rw [List.foldl_append]
    exact edit_after_named a ih

/-! ## What a history says of a table -/

/-- Whether an amendment puts an end to the columns that a table has. -/
def Amendment.Ends (table : Text) (a : Amendment) : Prop :=
  a = .withdraw table ∨ ∃ columns, a = .declare table columns ∧ CanDeclare table columns

@[simp] theorem Amendment.ends_declare {t table : Text} {columns : List Text} :
    (declare t columns).Ends table ↔ t = table ∧ CanDeclare t columns := by
  unfold Ends
  aesop

@[simp] theorem Amendment.ends_withdraw {t table : Text} : (withdraw t).Ends table ↔ t = table := by
  unfold Ends
  aesop

/-- The last declaration of a table that could be made gave it these columns, and the table was not
withdrawn since. -/
def InForce (history : List Amendment) (table : Text) (columns : List Text) : Prop :=
  ∃ before after, history = before ++ .declare table columns :: after
    ∧ CanDeclare table columns ∧ ∀ a ∈ after, ¬a.Ends table

/-- The declaration at a place in the history brought a table: it could be made when the table was
not there, and the table was not withdrawn since. -/
def BroughtAt (history : List Amendment) (table : Text) (place : Nat) : Prop :=
  ∃ before columns after, history = before ++ .declare table columns :: after
    ∧ before.length = place ∧ CanDeclare table columns
    ∧ (∀ columns, ¬InForce before table columns) ∧ .withdraw table ∉ after

variable {history : List Amendment} {a : Amendment} {table : Text} {columns : List Text}

/-- A history with one more amendment is split either at that one or before it. -/
theorem concat_eq_append_cons {before after : List Amendment} {b : Amendment} :
    history ++ [a] = before ++ b :: after ↔
      (before = history ∧ b = a ∧ after = [])
        ∨ ∃ rest, history = before ++ b :: rest ∧ after = rest ++ [a] := by
  constructor
  · intro h
    rcases List.eq_nil_or_concat' after with rfl | ⟨rest, last, rfl⟩
    · obtain ⟨hbefore, hlast⟩ := List.append_inj' h rfl
      exact .inl ⟨hbefore.symm, (List.cons.inj hlast).1.symm, rfl⟩
    · have hsplit : history ++ [a] = (before ++ b :: rest) ++ [last] := by
        rw [h, List.append_assoc, List.cons_append]
      obtain ⟨hrest, hlast⟩ := List.append_inj' hsplit rfl
      cases hlast
      exact .inr ⟨rest, hrest, rfl⟩
  · rintro (⟨rfl, rfl, rfl⟩ | ⟨rest, rfl, rfl⟩)
    · rfl
    · rw [List.append_assoc, List.cons_append]

theorem not_inForce_nil : ¬InForce [] table columns := by
  rintro ⟨before, after, hsplit, _⟩
  cases before <;> cases hsplit

/-- What one more amendment does to the columns that are in force. -/
theorem inForce_concat :
    InForce (history ++ [a]) table columns ↔
      (a = .declare table columns ∧ CanDeclare table columns)
        ∨ (¬a.Ends table ∧ InForce history table columns) := by
  constructor
  · rintro ⟨before, after, hsplit, hcan, hlast⟩
    rcases concat_eq_append_cons.1 hsplit with ⟨_, ha, _⟩ | ⟨rest, hhistory, rfl⟩
    · exact .inl ⟨ha.symm, hcan⟩
    · refine .inr ⟨hlast a (by simp), before, rest, hhistory, hcan, ?_⟩
      exact fun b hb => hlast b (List.mem_append_left _ hb)
  · rintro (⟨rfl, hcan⟩ | ⟨hends, before, after, rfl, hcan, hlast⟩)
    · exact ⟨history, [], rfl, hcan, nofun⟩
    · refine ⟨before, after ++ [a], by simp, hcan, ?_⟩
      intro b hb
      rcases List.mem_append.1 hb with hb | hb
      · exact hlast b hb
      · exact List.mem_singleton.1 hb ▸ hends

/-- What one more amendment does to the place at which a table was brought. -/
theorem broughtAt_concat {place : Nat} :
    BroughtAt (history ++ [a]) table place ↔
      (place = history.length ∧ (∀ columns, ¬InForce history table columns)
          ∧ ∃ columns, a = .declare table columns ∧ CanDeclare table columns)
        ∨ (a ≠ .withdraw table ∧ BroughtAt history table place) := by
  constructor
  · rintro ⟨before, columns, after, hsplit, hplace, hcan, hnew, hkept⟩
    rcases concat_eq_append_cons.1 hsplit with ⟨rfl, ha, _⟩ | ⟨rest, hhistory, rfl⟩
    · exact .inl ⟨hplace.symm, hnew, columns, ha.symm, hcan⟩
    · simp only [List.mem_append, List.mem_singleton, not_or] at hkept
      exact .inr ⟨Ne.symm hkept.2, before, columns, rest, hhistory, hplace, hcan, hnew, hkept.1⟩
  · rintro (⟨rfl, hnew, columns, rfl, hcan⟩ | ⟨ha, before, columns, after, rfl, hplace, hcan, hnew, hkept⟩)
    · exact ⟨history, columns, [], rfl, rfl, hcan, hnew, List.not_mem_nil⟩
    · refine ⟨before, columns, after ++ [a], by simp, hplace, hcan, hnew, ?_⟩
      simpa using ⟨hkept, Ne.symm ha⟩

theorem BroughtAt.lt {place : Nat} (h : BroughtAt history table place) : place < history.length := by
  obtain ⟨before, columns, after, rfl, rfl, _⟩ := h
  simp

/-- A table that was there is not brought by one more amendment. -/
theorem BroughtAt.of_inForce {place : Nat} (h : BroughtAt (history ++ [a]) table place)
    (hthere : InForce history table columns) : BroughtAt history table place := by
  rcases broughtAt_concat.1 h with ⟨_, hnew, _⟩ | ⟨_, h⟩
  · exact absurd hthere (hnew columns)
  · exact h

/-- A table is there exactly if some declaration brought it. -/
theorem exists_broughtAt_iff :
    (∃ place, BroughtAt history table place) ↔ ∃ columns, InForce history table columns := by
  induction history using List.reverseRecOn with
  | nil =>
    constructor
    · rintro ⟨place, h⟩
      exact absurd h.lt (Nat.not_lt_zero place)
    · rintro ⟨columns, h⟩
      exact absurd h not_inForce_nil
  | append_singleton history a ih =>
    simp only [broughtAt_concat, inForce_concat]
    constructor
    · rintro ⟨place, ⟨_, _, columns, ha, hcan⟩ | ⟨ha, hplace⟩⟩
      · exact ⟨columns, .inl ⟨ha, hcan⟩⟩
      · by_cases hends : a.Ends table
        · obtain ⟨columns, hdeclare⟩ := hends.resolve_left ha
          exact ⟨columns, .inl hdeclare⟩
        · obtain ⟨columns, hthere⟩ := ih.1 ⟨place, hplace⟩
          exact ⟨columns, .inr ⟨hends, hthere⟩⟩
    · rintro ⟨columns, ⟨rfl, hcan⟩ | ⟨hends, hthere⟩⟩
      · by_cases hthere : ∃ columns, InForce history table columns
        · obtain ⟨place, hplace⟩ := ih.2 hthere
          exact ⟨place, .inr ⟨nofun, hplace⟩⟩
        · exact ⟨history.length, .inl ⟨rfl, not_exists.1 hthere, columns, rfl, hcan⟩⟩
      · obtain ⟨place, hplace⟩ := ih.2 ⟨columns, hthere⟩
        exact ⟨place, .inr ⟨fun ha => hends (.inl ha), hplace⟩⟩

/-- A table that was not there is brought by the last amendment or not at all. -/
theorem BroughtAt.of_absent {place : Nat} (h : BroughtAt (history ++ [a]) table place)
    (habsent : ∀ columns, ¬InForce history table columns) : place = history.length := by
  rcases broughtAt_concat.1 h with ⟨hplace, _⟩ | ⟨_, h⟩
  · exact hplace
  · obtain ⟨columns, hthere⟩ := exists_broughtAt_iff.1 ⟨place, h⟩
    exact absurd hthere (habsent columns)

/-! ## What is left is what the history says -/

theorem get?_contents :
    (contents history).get? table = some columns ↔ InForce history table columns := by
  induction history using List.reverseRecOn with
  | nil => simp [contents, not_inForce_nil]
  | append_singleton history a ih =>
    rw [contents_concat, inForce_concat, ← ih]
    cases a with
    | withdraw t =>
      simp only [Amendment.apply, Keyed.get?_erase, Amendment.ends_withdraw]
      split <;> simp_all
    | declare t cols =>
      simp only [Amendment.apply, Amendment.ends_declare]
      split
      · simp only [Keyed.get?_insert]
        split <;> aesop
      · aesop

theorem mem_keys_contents :
    table ∈ (contents history).keys ↔ ∃ columns, InForce history table columns := by
  simp only [Keyed.mem_keys_iff, get?_contents]

/-- An amendment leaves some of the tables in their order, or puts a new one behind them. -/
theorem Amendment.keys_apply (m : Keyed Text (List Text)) (a : Amendment) :
    (a.apply m).keys.Sublist m.keys ∨ ∃ t, t ∉ m.keys ∧ (a.apply m).keys = m.keys ++ [t] := by
  cases a with
  | withdraw t => exact .inl (m.keys_erase_sublist t)
  | declare t cols =>
    unfold apply
    dsimp only
    split
    · rw [Keyed.keys_insert]
      split
      · exact .inl (.refl _)
      · rename_i hnew
        exact .inr ⟨t, hnew, rfl⟩
    · exact .inl (.refl _)

/-- Of two tables the first was brought before the second. -/
def BroughtBefore (history : List Amendment) (t u : Text) : Prop :=
  ∀ i j, BroughtAt history t i → BroughtAt history u j → i < j

/-- The tables stand in the order in which they were brought. -/
theorem pairwise_keys_contents (history : List Amendment) :
    (contents history).keys.Pairwise (BroughtBefore history) := by
  induction history using List.reverseRecOn with
  | nil => exact .nil
  | append_singleton history a ih =>
    have hkept : (contents history).keys.Pairwise (BroughtBefore (history ++ [a])) := by
      refine ih.imp_of_mem fun {t u} ht hu hbefore i j hi hj => ?_
      obtain ⟨_, ht⟩ := mem_keys_contents.1 ht
      obtain ⟨_, hu⟩ := mem_keys_contents.1 hu
      exact hbefore i j (hi.of_inForce ht) (hj.of_inForce hu)
    rw [contents_concat]
    rcases a.keys_apply (contents history) with hsub | ⟨u, hnew, hkeys⟩
    · exact hkept.sublist hsub
    · rw [hkeys]
      refine List.pairwise_append.2 ⟨hkept, List.pairwise_singleton _ u, ?_⟩
      intro t ht u' hu' i j hi hj
      cases List.mem_singleton.1 hu'
      obtain ⟨_, ht⟩ := mem_keys_contents.1 ht
      rw [hj.of_absent fun columns h => hnew (mem_keys_contents.2 ⟨columns, h⟩)]
      exact (hi.of_inForce ht).lt

/-! ## What can be asked of the catalog -/

theorem columns_named {m : Keyed Text (List Text)} :
    (named m).columns table = match m.get? table with
      | some columns => .ok columns
      | none => .error (.unknownTable table) := by
  rw [← columns?_named]
  rfl

theorem holds_named (m : Keyed Text (List Text)) (table : Text) :
    (named m).holds (.text table) = .ok (m.contains table) := by
  show Except.ok ((named m).declarations.get? (.text table)).isSome = _
  rw [get?_named, Option.isSome_map]
  rfl

/--
**A catalog reflects its history.** After any amendments a declaration is refused exactly if it does
not name its table, or names no columns or one of them twice, and then nothing has happened; a table
has the columns that are in force by the history, which could be declared, and is unknown if none
are; and the tables are those that have columns, each once, in the order in which they were brought.
-/
theorem reflects_history (history : List Amendment) :
    let s := afterEdits ⟨empty, []⟩ (history.map Amendment.edit)
    (∀ (table : Text) (columns : List Text),
      if table = "" ∨ columns = [] ∨ ¬columns.Nodup then
        ∃ cause, declare (.text table) (.list (columns.map .text)) s = .error (.argument cause) s
      else (declare (.text table) (.list (columns.map .text))).endsWell s = true)
    ∧ (∀ table columns, s.state.columns table = .ok columns ↔ InForce history table columns)
    ∧ (∀ table, s.state.columns table = .error (.unknownTable table) ↔
      ∀ columns, ¬InForce history table columns)
    ∧ (∀ table columns, s.state.columns table = .ok columns → columns ≠ [] ∧ columns.Nodup)
    ∧ (∀ table, s.state.holds (.text table) = .ok true ↔
      ∃ columns, InForce history table columns)
    ∧ ∃ tables : List Text, s.state.tables = tables.map .text ∧ tables.Nodup
      ∧ (∀ t, t ∈ tables ↔ ∃ columns, InForce history t columns)
      ∧ (∀ t, t ∈ tables ↔ ∃ place, BroughtAt history t place)
      ∧ tables.Pairwise (BroughtBefore history) := by
  intro s
  have hstate : s.state = named (contents history) := afterEdits_named history
  have hproper : s.state.Proper := .afterEdits proper_empty _
  refine ⟨fun table columns => ?_, fun table columns => ?_, fun table => ?_,
    fun table columns => hproper.columns, fun table => ?_, (contents history).keys, ?_,
    (contents history).nodup, fun t => mem_keys_contents,
    fun t => mem_keys_contents.trans exists_broughtAt_iff.symm, pairwise_keys_contents history⟩
  · split
    · rename_i hbad
      exact declare_of_not_canDeclare (not_canDeclare.2 hbad) s
    · rename_i hgood
      have hcan : CanDeclare table columns := Decidable.not_not.1 fun h => hgood (not_canDeclare.1 h)
      exact Act.endsWell_of_ok (declare_of_canDeclare hcan s)
  · rw [hstate, columns_named, ← get?_contents]
    cases (contents history).get? table <;> simp
  · rw [hstate, columns_named]
    simp only [← get?_contents]
    cases (contents history).get? table <;> simp
  · rw [hstate, holds_named, ← mem_keys_contents, Keyed.mem_keys_iff]
    unfold Keyed.contains
    rw [Except.ok.injEq, Option.isSome_iff_exists]
  · rw [hstate, tables_named]

/-- Two tables are declared and one of them again, the other is not, for a column that it names
twice, and then the first is withdrawn and comes back. -/
def returning : List Amendment :=
  [.declare "a" ["id"], .declare "b" ["id", "name"], .declare "a" ["id", "age"],
    .declare "b" ["id", "id"], .withdraw "a", .declare "a" ["key"]]

/-- The table that came back stands behind the one that it was in front of. -/
theorem reflects_history_of_return :
    let s := afterEdits ⟨empty, []⟩ (returning.map Amendment.edit)
    s.state.tables = (["b", "a"] : List Text).map .text
    ∧ InForce returning "a" ["key"] ∧ InForce returning "b" ["id", "name"]
    ∧ BroughtBefore returning "b" "a" := by
  intro s
  obtain ⟨_, hcolumns, _, _, _, tables, htables, _, _, _, hordered⟩ := reflects_history returning
  have hba : s.state.tables = (["b", "a"] : List Text).map .text := rfl
  have hnames : tables = (["b", "a"] : List Text) :=
    List.map_injective_iff.2 (fun _ _ => Data.text.inj) (htables.symm.trans hba)
  subst hnames
  exact ⟨hba, (hcolumns "a" ["key"]).1 rfl, (hcolumns "b" ["id", "name"]).1 rfl,
    (List.pairwise_cons.1 hordered).1 "a" (List.mem_singleton_self ("a" : Text))⟩

end Changefeed.Catalog
