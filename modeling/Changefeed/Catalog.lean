import Changefeed.Act
import Changefeed.Keyed

/-!
# The catalog of tables

The columns of every known table in the order in which the table declares them.
A change can be put into declaration order only if its table is in the catalog.
Declaring a table again replaces its columns as a whole and keeps its place and
its name among the tables.

The log names tables by texts. A declaration comes from outside and may name its
table by any value that can be a key.
-/

namespace Changefeed

/-! ## Names of tables -/

/-- What a table is known by. Values that are equal name one table: a truth value and a number do
if they count the same, a kind of change and its word do. -/
inductive TableKey where
  | text (t : Text)
  | whole (n : Int)
  /-- A number that is not whole. -/
  | double (x : Double)
  | position (p : Position)
  /-- A double that is no number. It equals nothing, so each declaration makes another table. -/
  | unique (serial : Nat)
deriving DecidableEq

namespace TableKey

/-- The key that a value equals, if it equals one that a table could be known by. -/
def ofValue? : Value → Except Fault (Option TableKey)
  | .null | .mark .missing => .ok none
  | .bool b => .ok (some (.whole (if b then 1 else 0)))
  | .int n => .ok (some (.whole n))
  | .float x =>
    .ok (if x.isNaN then none else if x.isWhole then some (.whole x.truncate) else some (.double x))
  | .text t => .ok (some (.text t))
  | .mark (.kind k) => .ok (some (.text k.word))
  | .mark (.position p) => .ok (some (.position p))
  | .list items => .error (.misuse (.notKey (.list items)))
  | .record fields => .error (.misuse (.notKey (.record fields)))

/-- Whether a key is that of a table whose name equals nothing. -/
def isUnique : TableKey → Bool
  | unique _ => true
  | _ => false

end TableKey

/-! ## Declarations -/

/-- A declared table. -/
structure Declaration where
  /-- What the table was named by first. -/
  table : Value
  /-- The columns in declaration order. -/
  columns : List Text

/-- The declaration of each table. -/
structure Catalog where
  declarations : Keyed TableKey Declaration

namespace Catalog

/-- A catalog without tables. -/
def empty : Catalog := ⟨Keyed.empty⟩

/-- The tables, in the order of the declarations that brought them. -/
def tables (c : Catalog) : List Value := c.declarations.toList.map fun e => e.2.table

/-- The columns under a key. -/
def columns? (c : Catalog) (key : TableKey) : Option (List Text) :=
  (c.declarations.get? key).map Declaration.columns

/-- The columns of a table in declaration order. -/
def columns (c : Catalog) (table : Text) : Except Fault (List Text) :=
  match c.columns? (.text table) with
  | some cols => .ok cols
  | none => .error (.unknownTable table)

/-- What is wrong with a declaration, if anything. -/
def flaw? (table : Value) (cols : List Text) : Option ArgumentCause :=
  if !table.saysSomething then some .noTableName
  else if cols.isEmpty then some (.noColumns table)
  else if ¬cols.Nodup then some (.repeatedColumns table)
  else none

/-- A key that no table has. -/
def freshKey (c : Catalog) : TableKey := .unique (c.declarations.keys.countP TableKey.isUnique)

/-- What there is to tell about columns that were declared for a table. -/
def declared (table : Value) (cols : List Text) : Option (List Text) → List Notice
  | none => [.registered table.asText cols.length]
  | some old => if old = cols then [] else [.replaced table.asText old.length cols.length]

/-- Puts the columns of a table under a key. -/
def insert (key : TableKey) (table : Value) (cols : List Text) : Act Catalog Unit := fun s =>
  let old := s.state.declarations.get? key
  let first := (old.map Declaration.table).getD table
  .ok () ⟨⟨s.state.declarations.insert key ⟨first, cols⟩⟩,
    s.notices ++ declared table cols (old.map Declaration.columns)⟩

/-- Declares the columns of a table. -/
def register (table : Value) (cols : List Text) : Act Catalog Unit := do
  match flaw? table cols with
  | some cause => .fail (.showing table (.argument cause))
  | none =>
    let key ← Act.ofExcept (TableKey.ofValue? table)
    insert (key.getD (← Act.state).freshKey) table cols

/-- Takes a table out of the catalog, if it is there. -/
def unregister (c : Catalog) (table : Text) : Catalog := ⟨c.declarations.erase (.text table)⟩

/-- Whether a value names a table of the catalog. -/
def holds (c : Catalog) (v : Value) : Except Fault Bool := do
  match ← TableKey.ofValue? v with
  | some key => return c.declarations.contains key
  | none => return false

/-- The column names in a value: the items of a list, the field names of a record, the characters
of a text. -/
def columnNames : Value → Except Fault (List Text)
  | .list items => .ok (items.map Data.asText)
  | .record fields => .ok (fields.map Prod.fst)
  | .text t => .ok t.singles
  | .mark (.kind k) => .ok (Text.singles k.word)
  | v => .error (.misuse (.notIterable v))

/-- Declares the columns of a table, both given as values. -/
def declare (table columns : Value) : Act Catalog Unit := do
  register table (← Act.ofExcept (columnNames columns))

end Catalog

end Changefeed
