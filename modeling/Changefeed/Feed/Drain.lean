import Changefeed.Feed.Basic
import Changefeed.Payload

/-!
# Draining a source

A source is drained item by item until it is exhausted, the stream is stopped or
something fails. A policy of skipping passes over changes whose fault is one of
order, and over nothing else. Between two items the source may do other things
to the feed, or break.
-/

namespace Changefeed

/-- What a source delivers. -/
inductive Item where
  | entry (e : LogEntry)
  /-- The snapshot is complete up to a position. -/
  | snapshot (p : Position)

/-- What happens to a feed while it waits for an item. -/
inductive Aside where
  /-- A table is declared. -/
  | declare (table columns : Value)
  | stop
  /-- The sink changes its ways. -/
  | sink (s : Sink LogEntry)

/-- What comes of asking a source for its next item. -/
inductive Arrival where
  | item (i : Item)
  /-- An item that cannot be made out. -/
  | unreadable (f : Fault)
  /-- No item yet. -/
  | aside (a : Aside)
  /-- No item any more: the source fails. -/
  | broken (f : Fault)

namespace Arrival

/-- The arrivals of the entries in a payload; one that cannot be read breaks the source. -/
def ofPayload (s : String) : List Arrival :=
  match Payload.ofText s with
  | .ok entries => entries.map fun e => .item (.entry e)
  | .error f => [.broken f]

end Arrival

/-- How far a source was drained. -/
structure Drained where
  /-- How many changes were taken. -/
  emitted : Nat
  /-- How many items the source delivered or was about to. -/
  pulled : Nat
  /-- What ended the drain, if it was a fault. -/
  fault : Option Fault

namespace Drained

/-- Nothing was drained yet. -/
def start : Drained := ⟨0, 0, none⟩

/-- One more item was delivered. -/
def pull (d : Drained) : Drained := { d with pulled := d.pulled + 1 }

/-- So many more changes were taken. -/
def emit (d : Drained) (n : Nat) : Drained := { d with emitted := d.emitted + n }

/-- A fault ended the drain. -/
def fail (d : Drained) (f : Fault) : Drained := { d with fault := some f }

/-- What the drain ends with for whoever asked for it: how many changes were taken, or its fault. -/
def result (d : Drained) : Except Fault Nat :=
  match d.fault with
  | none => .ok d.emitted
  | some f => .error f

theorem result_of_unfailed {d : Drained} (h : d.fault = none) : d.result = .ok d.emitted := by
  unfold result
  rw [h]

theorem result_of_fault {d : Drained} {f : Fault} (h : d.fault = some f) : d.result = .error f := by
  unfold result
  rw [h]

end Drained

namespace Feed

variable {σ : Type} [CheckpointStore σ]

/-- Lets something happen between two items. -/
def letHappen : Aside → Act (Feed σ) Unit
  | .declare table columns => onCatalog (Catalog.declare table columns)
  | .stop => stop
  | .sink s => onSession (.update fun session => { session with sink := some s })

/-- Whether a fault of a change is passed over. -/
def skips (f : Feed σ) (fault : Fault) : Bool := f.policy = .skip && fault.family = .order

/-- Takes an item, and ends with the number of changes taken. -/
def take : Item → Act (Feed σ) Nat
  | .snapshot p => do
    completeSnapshot p
    return 0
  | .entry e => do
    match ← Act.outcome (offer e) with
    | .ok _ => return 1
    | .error fault =>
      if (← Act.state).skips fault then
        .note (.skipped fault)
        return 0
      else .fail fault

/-- Drains a source after so much was drained of it. -/
def drainFrom (d : Drained) : List Arrival → Act (Feed σ) Drained
  | [] => return d
  | .broken f :: _ => return d.fail f
  | .unreadable f :: _ => return d.pull.fail f
  | .aside a :: rest => do
    match ← Act.outcome (letHappen a) with
    | .ok _ => drainFrom d rest
    | .error f => return d.fail f
  | .item i :: rest => do
    let s := (← Act.state).session
    if s.isStopped then
      .note (.leaving s.key)
      return d.pull
    else
      match ← Act.outcome (take i) with
      | .ok n => drainFrom (d.pull.emit n) rest
      | .error f => return d.pull.fail f

/-- Drains a source. -/
def drain (source : List Arrival) : Act (Feed σ) Drained := drainFrom .start source

end Feed

end Changefeed
