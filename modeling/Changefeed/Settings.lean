import Changefeed.Checkpoint.Host
import Changefeed.Feed.Basic

/-!
# Settings

A feed is set up by variables of its environment. Each has a default for when it
is not set; a word that a variable does not know counts as its default too, and
blanks around a value do not matter, but for the path of the checkpoint file.
Only a position to resume from can be refused.

The settings keep the words as they are, so settings made by hand may hold any;
`Settings.options` and `Settings.openStore` say what they mean, and `Settings.build`
opens a feed by them.
-/

namespace Changefeed

/-- The settings of a feed. -/
structure Settings where
  serverName : String
  snapshotMode : String
  checkpointBackend : String
  resumePath : Path
  resumeSync : Bool
  orderPolicy : String
  scope : String
  resume : Option Position

namespace Settings

/-- The name of a variable. -/
def variableName (name : String) : String := "CDC_" ++ name

/-- A word without the blanks around it, in lower case. -/
def normalWord (s : String) : String := Text.lowered (Text.trim s)

/-- The word of a variable, if it is one of those known, after replacing aliases; else a default. -/
def wordOr (default : String) (known : List String) (aliases : List (String × String)) :
    Option String → String
  | none => default
  | some s =>
    let w := (Keyed.find (normalWord s) aliases).getD (normalWord s)
    if w ∈ known then w else default

/-- The text of a variable without the blanks around it; a default if it is not set or blank. -/
def textOr (default : String) : Option String → String
  | none => default
  | some s => if Text.trim s = "" then default else Text.trim s

/-- Whether a variable says yes: it is set, and not to a word for no. -/
def isYes : Option String → Bool
  | none => false
  | some s => normalWord s ∉ ["0", "false", "no"]

/-- The position of a variable, unless it is not set or blank. -/
def position? : Option String → Except Fault (Option Position)
  | none => .ok none
  | some s => if Text.trim s = "" then .ok none else (Position.ofText s).map some

/-- The settings in an environment: the variables as they stand after any file of variables was
loaded into it. -/
def ofEnvironment (env : Keyed String String) : Except Fault Settings := do
  let get name := env.get? (variableName name)
  let resume ← position? (get "RESUME_LSN")
  return {
    serverName := textOr "informix" (get "SERVER_NAME")
    snapshotMode := wordOr "initial" ["initial", "no_data"] [("schema_only", "no_data")]
      (get "SNAPSHOT_MODE")
    checkpointBackend := wordOr "file" ["memory", "file"] [] (get "CHECKPOINT_BACKEND")
    resumePath := .ofText ((get "RESUME_PATH").getD "cdc_resume_positions.json")
    resumeSync := isYes (get "RESUME_FSYNC")
    orderPolicy := wordOr "fail" ["fail", "skip"] [] (get "OUT_OF_ORDER_POLICY")
    scope := textOr "informix_cdc" (get "METRICS_NAMESPACE")
    resume }

/-- Whether the settings ask for a snapshot. -/
def captureSnapshot (s : Settings) : Bool := s.snapshotMode ≠ "no_data"

/-- How a feed with these settings is set up. -/
def options (s : Settings) : Options :=
  ⟨s.serverName, s.captureSnapshot, s.orderPolicy, s.resume, s.scope⟩

/-- Opens the checkpoint store that the settings ask for. -/
def openStore (s : Settings) : Act Disk Store := do
  if s.checkpointBackend = "file" then
    return .file (← FileStore.openAt s.resumePath s.resumeSync)
  else return .memory .empty

/-- The store of a feed: the one that is given, or else the one that the settings ask for. -/
def storeFor (s : Settings) : Option Store → Act Disk Store
  | some store => pure store
  | none => s.openStore

/-- Opens a feed with these settings. -/
def build (s : Settings) (given : Option Store) (sink : Sink LogEntry) : Act Disk (Feed Host) := do
  let store ← s.storeFor given
  Feed.openOn s.options (⟨← Act.state, store⟩ : Host) sink

end Settings

end Changefeed
