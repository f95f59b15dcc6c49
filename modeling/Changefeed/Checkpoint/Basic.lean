import Changefeed.Act
import Changefeed.Keyed

/-!
# Checkpoint stores

A checkpoint store keeps, for each stream, the position from which a later run
resumes. Saving never moves a position back; a reset does, but only when whoever
asks for it shows that they know the position they replace, or insists.
-/

namespace Changefeed

/-- A request to reset the position of a stream. -/
structure Reset where
  /-- The position that is thought to be stored. -/
  expected : Option Position
  /-- The position to store; without one, or with the null position, nothing is stored. -/
  target : Option Position
  /-- Whether to reset whatever is stored. -/
  force : Bool

namespace Reset

/-- The sequence to store. -/
def sequence? (r : Reset) : Option Sequence := r.target.bind Position.known?

/-- Why a reset is refused when `current` is stored, if it is. -/
def refusal? (r : Reset) (current : Option Sequence) : Option ArgumentCause :=
  if r.force then none
  else
    match current with
    | none => if r.expected.any Position.isKnown then some .resetOfNothing else none
    | some n =>
      if r.expected ≠ some (.known n) then some .resetUnexpected
      else if r.sequence?.any (n < ·) then some .resetForward
      else none

end Reset

/-- What keeps the positions of streams by key. -/
class CheckpointStore (σ : Type) where
  /-- The position of a stream; null if none is stored. -/
  load : σ → Text → Except Fault Position
  /-- Stores a position, unless it is null or no further than the one stored. -/
  save : Text → Position → Act σ Unit
  /-- Replaces or removes a position. -/
  reset : Text → Reset → Act σ Unit

/-! ## In memory -/

/-- A checkpoint store that is gone with the process. -/
structure MemoryStore where
  positions : Keyed Text Sequence

namespace MemoryStore

/-- A store without positions. -/
def empty : MemoryStore := ⟨Keyed.empty⟩

/-- The position of a stream. -/
def load (s : MemoryStore) (key : Text) : Position := .ofKnown (s.positions.get? key)

/-- Whether a sequence is to be stored: nothing is stored, or something before it. -/
def admits (current : Option Sequence) (n : Sequence) : Bool :=
  match current with
  | none => true
  | some m => m < n

/-- Stores a position, unless it is null or no further than the one stored. -/
def save (key : Text) : Position → Act MemoryStore Unit
  | .null => pure ()
  | .known n =>
    .update fun s =>
      if admits (s.positions.get? key) n then ⟨s.positions.insert key n⟩ else s

/-- The store with another position in place of the one stored. -/
def replace (key : Text) (target : Option Position) (s : MemoryStore) : MemoryStore :=
  match target with
  | none | some .null => ⟨s.positions.erase key⟩
  | some (.known n) => ⟨s.positions.insert key n⟩

/-- Replaces or removes a position. -/
def reset (key : Text) (r : Reset) : Act MemoryStore Unit := do
  match r.refusal? ((← Act.state).positions.get? key) with
  | some cause => .fail (.argument cause)
  | none => .update (replace key r.target)

instance : CheckpointStore MemoryStore where
  load s key := .ok (s.load key)
  save := save
  reset := reset

end MemoryStore

end Changefeed
