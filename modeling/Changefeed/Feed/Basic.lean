import Changefeed.Feed.Meters
import Changefeed.Stream.Session

/-!
# Feeds

A feed takes log entries, puts them into the declaration order of their tables
and offers the changes to the sink of its session, keeping meters of what
becomes of them.
-/

namespace Changefeed

/-- What a feed does about a change that does not advance its stream while it drains a source. -/
inductive OrderPolicy where
  | fail
  | skip
deriving DecidableEq, Repr

/-- The policy that a word names. -/
def OrderPolicy.ofText? (s : String) : Option OrderPolicy :=
  if s = "fail" then some .fail else if s = "skip" then some .skip else none

/-- How a feed is set up. -/
structure Options where
  /-- The name of the server, which is the key of the stream. -/
  serverName : Text
  /-- Whether to wait for a snapshot. -/
  captureSnapshot : Bool
  /-- The word for the policy on changes that do not advance the stream. -/
  policy : String
  /-- Where to resume, whatever is stored. -/
  resume : Option Position
  /-- What the names of the meters begin with. -/
  scope : String

/-- A feed on a checkpoint store. -/
structure Feed (σ : Type) where
  catalog : Catalog
  meters : Meters
  policy : OrderPolicy
  resume : Option Position
  session : Session σ LogEntry

namespace Feed

variable {S σ α : Type} [CheckpointStore σ]

/-- Acts on the session. -/
def onSession (act : Act (Session σ LogEntry) α) : Act (Feed σ) α :=
  act.within (·.session) fun session f => { f with session }

/-- Acts on the catalog. -/
def onCatalog (act : Act Catalog α) : Act (Feed σ) α :=
  act.within (·.catalog) fun catalog f => { f with catalog }

/-- Counts one more of a tally. -/
def count (t : Tally) : Act (Feed σ) Unit := .update fun f => { f with meters := f.meters.add 1 t }

/-- Sets the gauge of the position. -/
def setPosition (p : Position) : Act (Feed σ) Unit :=
  .update fun f => { f with meters := { f.meters with position := p } }

/-- Counts an amount of a tally, which must not be negative. -/
def countMany (t : Tally) (amount : Int) : Act (Feed σ) Unit :=
  if amount < 0 then .fail (.argument .negativeAmount)
  else .update fun f => { f with meters := f.meters.add amount.toNat t }

/-! ## Opening -/

/-- Opens the session of a feed. A given position to resume from takes the place of a snapshot that
is not waited for, and then the store is not asked for one. -/
def openSession (o : Options) (store : σ) (sink : Sink LogEntry) : Act S (Session σ LogEntry) := do
  match o.captureSnapshot, o.resume with
  | false, some p =>
    let session ← Session.openOn o.serverName store (some sink) true
    return (← Act.apart session (Session.beginStreaming (some p))).2
  | awaitSnapshot, _ => Session.openOn o.serverName store (some sink) awaitSnapshot

/-- Opens a feed. -/
def openOn (o : Options) (store : σ) (sink : Sink LogEntry) : Act S (Feed σ) := do
  match OrderPolicy.ofText? o.policy with
  | none => .fail (.argument (.unknownPolicy o.policy))
  | some policy =>
    let session ← openSession o store sink
    let meters := { Meters.start o.scope with position := session.reached }
    return ⟨Catalog.empty, meters, policy, o.resume, session⟩

/-! ## Phases -/

/-- The position that the stream has come to. -/
def reached (f : Feed σ) : Position := f.session.reached

/-- Streams without a snapshot, from a given position or else from the stored one. -/
def beginStreaming (place : Option Position) : Act (Feed σ) Unit := do
  onSession (Session.beginStreaming place)
  setPosition (← Act.state).reached

/-- Streams from the position at which the snapshot was taken. -/
def completeSnapshot (p : Position) : Act (Feed σ) Unit := do
  onSession (Session.completeSnapshot p)
  setPosition p

/-- Ends the session. -/
def stop : Act (Feed σ) Unit := onSession Session.stop

/-- Where to resume: the given position, or else the stored one. -/
def resumption (f : Feed σ) : Except Fault Position :=
  match f.resume with
  | some p => .ok p
  | none => f.session.stored

/-- Resumes if there is a known position to resume from, and goes on waiting for the snapshot
otherwise. Ends with the phase that the stream is in. -/
def start : Act (Feed σ) Phase := do
  let f ← Act.state
  if f.session.phase = .snapshotting then
    let p ← Act.ofExcept f.resumption
    if p.isKnown then beginStreaming (some p)
  return (← Act.state).session.phase

/-! ## Changes -/

/-- Hands a change over to something that reacts to it. -/
def handOver (react : Change → Act (Feed σ) Unit) (c : Change) : Act (Feed σ) Unit := do
  onSession (Session.recordHanded c)
  react c
  onSession (Session.recordTaken c)
  count .published

/-- Makes a change of a log entry and takes it, handing it over by the given action. -/
def process (hand : Change → Act (Feed σ) Unit) (e : LogEntry) : Act (Feed σ) Change := do
  let c ← Act.ofExcept (e.assemble (← Act.state).catalog)
  count .assembled
  onSession (Session.requireNext c)
  hand c
  onSession (Session.settle c)
  return c

/-- The tally that a fault of a change counts in. -/
def tallyOf (f : Fault) : Tally := if f.family = .order then .outOfOrder else .errors

/-- Processes a log entry and keeps the meters. A stopped feed refuses it uncounted. -/
def deliver (hand : Change → Act (Feed σ) Unit) (e : LogEntry) : Act (Feed σ) Change := do
  let s := (← Act.state).session
  if s.isStopped then .fail (.stopped (.offer s.key))
  else
    let c ← (process hand e).onFault fun f => count (tallyOf f)
    setPosition c.position
    return c

/-- What a sink can do to the feed that hands it a change. -/
def callbacks : Reaction.Callbacks (Feed σ) LogEntry where
  stop := stop
  completeSnapshot := completeSnapshot
  offer react e := discard (deliver (handOver react) e)

/-- Offers a log entry: makes a change of it, hands it to the sink and saves its position. -/
def offer (e : LogEntry) : Act (Feed σ) Change :=
  deliver (handOver fun c => do (← onSession Session.nextReaction).carryOut callbacks c) e

end Feed

end Changefeed
