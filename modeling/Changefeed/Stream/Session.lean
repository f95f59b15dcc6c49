import Changefeed.Checkpoint.Basic
import Changefeed.Stream.Sink

/-!
# Streams in session

A session is one life of a stream. It waits for a snapshot or resumes without
one, and from then on takes changes in strictly ascending order of position: a
change that does not lie beyond the last one taken is refused. A session with a
sink hands each change over, then counts it as taken, then saves its position,
in this order, so that a crash in between repeats the change and never skips it.
A session without a sink leaves handing over and committing to its owner.

If saving fails after the sink has taken a change, the fault is reported and the
change still counts as taken: in this session it is not offered again, while a
later session that resumes from the store repeats it.
-/

namespace Changefeed

/-- What happened in a session that others can see. -/
inductive Event where
  /-- A change was handed to the sink while the store held a position. -/
  | handed (change : Change) (stored : Except Fault Position)
  /-- The sink took a change. -/
  | taken (change : Change)
  /-- The store was asked to save a position. -/
  | saving (key : Text) (position : Position)

/-- One life of a stream, on a checkpoint store. -/
structure Session (σ α : Type) where
  key : Text
  phase : Phase
  /-- The position of the last change taken, or where streaming began. -/
  reached : Position
  store : σ
  /-- Where changes are handed to; its owner takes them if there is none. -/
  sink : Option (Sink α)
  /-- What happened, oldest first. -/
  trace : List Event

namespace Session

variable {S σ α : Type} [CheckpointStore σ]

/-- A session that waits for its snapshot. -/
def waiting (key : Text) (store : σ) (sink : Option (Sink α)) : Session σ α :=
  ⟨key, .snapshotting, .null, store, sink, []⟩

/-- Whether a session is over. -/
def isStopped (s : Session σ α) : Bool := s.phase = .stopped

/-- The position from which a later session would resume. -/
def stored (s : Session σ α) : Except Fault Position := CheckpointStore.load s.store s.key

/-- Keeps track of something that happened. -/
def record (e : Event) : Act (Session σ α) Unit := .update fun s => { s with trace := s.trace ++ [e] }

/-- Asks the store to save a position. -/
def save (p : Position) : Act (Session σ α) Unit := do
  let key := (← Act.state).key
  record (.saving key p)
  (CheckpointStore.save key p).within (·.store) fun store s => { s with store }

/-! ## Phases -/

/-- Streams from a position on. -/
def enterStreaming (p : Position) (origin : Origin) : Act (Session σ α) Unit := do
  .update fun s => { s with reached := p, phase := .streaming }
  .note (.streaming (← Act.state).key p origin)

/-- Fails unless the session waits for its snapshot. -/
def requireWaiting (t : Transition) : Act (Session σ α) Unit := do
  let s ← Act.state
  match s.phase with
  | .snapshotting => pure ()
  | .streaming => .fail (.lifecycle t s.key .streaming)
  | .stopped => .fail (.stopped (.transition t s.key))

/-- Streams from the position at which the snapshot was taken. -/
def completeSnapshot (p : Position) : Act (Session σ α) Unit := do
  requireWaiting .completeSnapshot
  save p
  enterStreaming p .snapshot

/-- Streams without a snapshot, from a given position or else from the stored one. -/
def beginStreaming (place : Option Position) : Act (Session σ α) Unit := do
  requireWaiting .beginStreaming
  match place with
  | some p => enterStreaming p .resume
  | none => enterStreaming (← Act.ofExcept (← Act.state).stored) .resume

/-- Ends the session. -/
def stop : Act (Session σ α) Unit := do
  let s ← Act.state
  if s.isStopped then pure ()
  else
    .update fun s => { s with phase := .stopped }
    .note (.halted s.key s.phase s.reached)

/-- Opens a session. Without a snapshot to wait for it streams from the stored position. -/
def openOn (key : Text) (store : σ) (sink : Option (Sink α)) (awaitSnapshot : Bool) :
    Act S (Session σ α) := do
  let s := waiting key store sink
  if awaitSnapshot then return s
  else
    let p ← Act.ofExcept s.stored
    return (← Act.apart s (enterStreaming p .resume)).2

/-! ## Changes -/

/-- Why a change is not taken, if it is not. -/
def refusal? (s : Session σ α) (c : Change) : Option Fault :=
  match s.phase with
  | .stopped => some (.stopped (.offer s.key))
  | .snapshotting => some (.order (.early c.position s.key))
  | .streaming =>
    if c.position ≤ s.reached then some (.order (.behind c.position c.table s.key s.reached))
    else none

/-- Fails if a change is not to be taken. -/
def requireNext (c : Change) : Act (Session σ α) Unit := do
  match (← Act.state).refusal? c with
  | some f => .fail f
  | none => pure ()

/-- Counts a change as taken. -/
def reach (p : Position) : Act (Session σ α) Unit := .update fun s => { s with reached := p }

/-- Counts a change as taken and saves its position. -/
def settle (c : Change) : Act (Session σ α) Unit := do
  reach c.position
  save c.position

/-- Keeps track of a change that the sink is about to be handed. -/
def recordHanded (c : Change) : Act (Session σ α) Unit := do
  record (.handed c (← Act.state).stored)

/-- Keeps track of a change that the sink took. -/
def recordTaken (c : Change) : Act (Session σ α) Unit := record (.taken c)

/-- The reaction of the sink to the change that it is handed now. -/
def nextReaction : Act (Session σ α) (Reaction α) := do
  match (← Act.state).sink with
  | none => return .accept
  | some sink =>
    .update fun s => { s with sink := some sink.advance }
    return sink.next

/-- Takes a change that the given action hands over. -/
def deliver (hand : Change → Act (Session σ α) Unit) (c : Change) : Act (Session σ α) Unit := do
  requireNext c
  hand c
  settle c

/-- Hands a change over to something that reacts to it. -/
def handOver (react : Change → Act (Session σ α) Unit) (c : Change) : Act (Session σ α) Unit := do
  recordHanded c
  react c
  recordTaken c

/-- What a sink can do to the session that hands it a change. -/
def callbacks : Reaction.Callbacks (Session σ Change) Change where
  stop := stop
  completeSnapshot := completeSnapshot
  offer react c := deliver (handOver react) c

/-- Takes a change: hands it to the sink and saves its position, if there is a sink. -/
def advance (c : Change) : Act (Session σ Change) Unit := do
  match (← Act.state).sink with
  | none =>
    requireNext c
    reach c.position
  | some _ =>
    deliver (handOver fun c => do (← nextReaction).carryOut callbacks c) c

/-- Saves a position that was taken and has since been handed over by the owner. -/
def commit (p : Position) : Act (Session σ α) Unit := do
  let s ← Act.state
  if s.reached < p then .fail (.order (.ahead p s.key s.reached))
  else save p

end Session

end Changefeed
