import Changefeed.Fault

/-!
# Notices

What a feed tells its operator while it works. A notice is kept as what happened;
`Notice.level` and `Notice.text` say how it is written to a log.
-/

namespace Changefeed

/-- How much a notice matters. -/
inductive Level where
  | info
  | warning
  | error
deriving DecidableEq, Repr

/-- The word for a level. -/
def Level.word : Level → String
  | .info => "INFO"
  | .warning => "WARNING"
  | .error => "ERROR"

/-- Why a stream streams from where it does. -/
inductive Origin where
  /-- A snapshot was taken there. -/
  | snapshot
  /-- An earlier run came that far. -/
  | resume
deriving DecidableEq, Repr

/-- The word for an origin. -/
def Origin.word : Origin → String
  | .snapshot => "snapshot"
  | .resume => "resume"

/-- What a feed tells its operator. -/
inductive Notice where
  | registered (table : Text) (columns : Nat)
  | replaced (table : Text) (before after : Nat)
  | streaming (stream : Text) (position : Position) (origin : Origin)
  | halted (stream : Text) (phase : Phase) (position : Position)
  /-- A drain ends because the stream is stopped. -/
  | leaving (stream : Text)
  | skipped (fault : Fault)
  /-- An entry of a checkpoint file denotes no position. -/
  | badEntry (entry : Json) (key : Text) (path : String)
  | discarded (entry : Json) (key : Text) (path : String)
  | unsaved (path : String) (cause : SystemCause)

namespace Notice

/-- How much a notice matters. -/
def level : Notice → Level
  | skipped _ | discarded .. => .warning
  | badEntry .. | unsaved .. => .error
  | _ => .info

/-- The wording of a notice. -/
def text : Notice → Text
  | registered table columns => "registered table " ++ table ++ s!" with {columns} columns"
  | replaced table before after =>
    "replaced column order for table " ++ table ++ s!" ({before} -> {after} columns)"
  | streaming stream position origin =>
    "stream " ++ stream ++ s!" streaming from {position} ({origin.word})"
  | halted stream phase position =>
    "stream " ++ stream ++ s!" stopped while {phase.word} at {position}"
  | leaving stream => "stream " ++ stream ++ " stop requested; leaving loop"
  | skipped fault => "skipping change: " ++ fault.message
  | badEntry entry key path =>
    "unparsable position " ++ entry.shown ++ " for " ++ key ++ " in " ++ path
  | discarded entry key path =>
    "discarding corrupt position " ++ entry.shown ++ " for " ++ key ++ " in " ++ path
  | unsaved path cause =>
    "failed to persist checkpoint file " ++ path ++ ": " ++ (Fault.system cause).message

end Notice

end Changefeed
