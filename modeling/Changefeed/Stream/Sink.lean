import Changefeed.Change

/-!
# Sinks

A sink takes the changes that a stream emits. It may accept a change or refuse
it, and before it does either it may call back: stop the stream, complete its
snapshot, or offer it something more. `Reaction` is what a sink does with one
change that it is handed; it is a finite tree, so a stream that carries it out
comes to an end, however deep the calls nest.
-/

namespace Changefeed

/-- What a sink does with one change; `α` is what it may offer in the meantime. -/
inductive Reaction (α : Type) where
  /-- Takes the change. -/
  | accept
  /-- Ends with a fault. -/
  | refuse (fault : Fault)
  /-- Stops the stream, then goes on. -/
  | stop (next : Reaction α)
  /-- Completes the snapshot at the position of the change, then goes on. -/
  | completeSnapshot (next : Reaction α)
  /-- Offers something more, reacts with `inner` if that is handed over, and goes on with what
  depends on how the offer ended. -/
  | offer (more : α) (inner : Reaction α) (next : Except Fault Unit → Reaction α)

namespace Reaction

variable {S α : Type}

/-- Accepts after a call back that went well, and passes its fault on otherwise. -/
def ofOutcome : Except Fault Unit → Reaction α
  | .ok _ => accept
  | .error f => refuse f

/-- What a sink can do to the stream that hands it a change. -/
structure Callbacks (S α : Type) where
  stop : Act S Unit
  completeSnapshot : Position → Act S Unit
  /-- Offers something more; a change that comes of it is handed to the given action. -/
  offer : (Change → Act S Unit) → α → Act S Unit

/-- Carries a reaction to a change out. -/
def carryOut (calls : Callbacks S α) : Reaction α → Change → Act S Unit
  | accept, _ => pure ()
  | refuse f, _ => .fail f
  | stop next, c => do
    calls.stop
    next.carryOut calls c
  | completeSnapshot next, c => do
    calls.completeSnapshot c.position
    next.carryOut calls c
  | offer more inner next, c => do
    let ended ← Act.outcome (calls.offer (inner.carryOut calls) more)
    (next ended).carryOut calls c

end Reaction

/-- A sink: how it reacts to the next changes, and to all after those. -/
structure Sink (α : Type) where
  upcoming : List (Reaction α)
  standing : Reaction α

namespace Sink

variable {α : Type}

/-- A sink that reacts in one way to everything. -/
def always (r : Reaction α) : Sink α := ⟨[], r⟩

/-- The reaction to the next change. -/
def next (s : Sink α) : Reaction α := s.upcoming.headD s.standing

/-- The sink after one more change. -/
def advance (s : Sink α) : Sink α := { s with upcoming := s.upcoming.tail }

end Sink

end Changefeed
