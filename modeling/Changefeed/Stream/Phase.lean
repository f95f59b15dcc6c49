/-!
# The phases of a stream

A stream waits for the snapshot of its tables, then streams, and may be stopped
at any time, for good.
-/

namespace Changefeed

/-- Where a stream is in its life. -/
inductive Phase where
  | snapshotting
  | streaming
  | stopped
deriving DecidableEq, Repr

/-- The word for a phase. -/
def Phase.word : Phase → String
  | .snapshotting => "snapshotting"
  | .streaming => "streaming"
  | .stopped => "stopped"

/-- The two ways from waiting to streaming. -/
inductive Transition where
  /-- The snapshot is complete. -/
  | completeSnapshot
  /-- Streaming begins without a snapshot. -/
  | beginStreaming
deriving DecidableEq, Repr

/-- The words for a transition. -/
def Transition.words : Transition → String
  | .completeSnapshot => "complete snapshot"
  | .beginStreaming => "begin streaming"

end Changefeed
