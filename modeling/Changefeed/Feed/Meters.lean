import Changefeed.Double.Basic
import Changefeed.Position.Basic

/-!
# Meters

What a feed counts, and the position it has come to. A counter keeps by how much
it was raised each time, so that its total is exact, however large, and whoever
exposes it can add up in numbers of its own. The gauge of the position shows the
double nearest to its sequence.
-/

namespace Changefeed

/-- A number that only goes up. -/
structure Counter where
  /-- By how much it was raised, oldest first. -/
  raises : List Nat

namespace Counter

/-- A counter that was not raised yet. -/
def zero : Counter := ⟨[]⟩

/-- Counts some more. -/
def add (c : Counter) (amount : Nat) : Counter := ⟨c.raises ++ [amount]⟩

/-- How much was counted. -/
def count (c : Counter) : Nat := c.raises.foldl (· + ·) 0

@[simp]
theorem count_zero : zero.count = 0 := rfl

@[simp]
theorem count_add (c : Counter) (amount : Nat) : (c.add amount).count = c.count + amount := by
  simp [count, add]

end Counter

/-- What can be counted. -/
inductive Tally where
  | assembled
  | published
  | outOfOrder
  | errors
deriving DecidableEq, Repr

/-- What a feed counts, and the position it has come to. -/
structure Meters where
  /-- What the names of the meters begin with. -/
  scope : String
  assembled : Counter
  published : Counter
  outOfOrder : Counter
  errors : Counter
  position : Position

namespace Meters

/-- Meters at their start. -/
def start (scope : String) : Meters := ⟨scope, .zero, .zero, .zero, .zero, .null⟩

/-- The counter of a tally. -/
def counter (m : Meters) : Tally → Counter
  | .assembled => m.assembled
  | .published => m.published
  | .outOfOrder => m.outOfOrder
  | .errors => m.errors

/-- Counts some more of a tally. -/
def add (m : Meters) (amount : Nat) : Tally → Meters
  | .assembled => { m with assembled := m.assembled.add amount }
  | .published => { m with published := m.published.add amount }
  | .outOfOrder => { m with outOfOrder := m.outOfOrder.add amount }
  | .errors => { m with errors := m.errors.add amount }

/-- What the gauge of the position shows: the double nearest to the sequence. -/
def shownPosition (m : Meters) : Int := (Double.ofInt m.position.sequence).truncate

/-! ## Description -/

/-- What a meter measures. -/
inductive Reading where
  | total (counter : Counter)
  | level (value : Int)

/-- A meter as it is exposed. -/
structure Metric where
  name : String
  help : String
  reading : Reading

/-- The name under which the reading of a meter is exposed. -/
def Metric.sampleName (m : Metric) : String :=
  match m.reading with
  | .total _ => m.name ++ "_total"
  | .level _ => m.name

/-- The meters as they are exposed, in ascending order of their names. -/
def describe (m : Meters) : List Metric :=
  let named (name : String) := m.scope ++ "_stream_" ++ name
  [⟨named "changes_assembled", "Raw changes assembled into canonical column order",
      .total m.assembled⟩,
   ⟨named "changes_published", "Changes accepted by the publication sink", .total m.published⟩,
   ⟨named "current_lsn", "Sequence of the last accepted log position (-1 when unavailable)",
      .level m.shownPosition⟩,
   ⟨named "errors", "Changes rejected for any other reason", .total m.errors⟩,
   ⟨named "out_of_order", "Changes rejected for not advancing the stream position",
      .total m.outOfOrder⟩]

end Meters

end Changefeed
