import Changefeed.Feed.Drain
import Changefeed.Proofs.Stream.Calls
import Changefeed.Settings
import Changefeed.Proofs.Stream.Stable
import Changefeed.Proofs.Stream.Emission
import Changefeed.Proofs.Checkpoint.Calls
import Changefeed.Proofs.Stream.Persisted
import Changefeed.Proofs.Double.Reading
import Changefeed.Proofs.Text.Decimal
import Changefeed.Proofs.Json.Numbers
import Changefeed.Proofs.Json.RoundTrip
import Changefeed.Proofs.Disk.Ways
import Changefeed.Proofs.Steps
import Changefeed.Proofs.Disk.Replace
import Changefeed.Proofs.Checkpoint.Content
import Changefeed.Proofs.Checkpoint.Opening
import Changefeed.Proofs.Checkpoint.Flush
import Changefeed.Proofs.Checkpoint.Durable
import Changefeed.Proofs.Checkpoint.Passing
import Changefeed.Proofs.Stream.Restart
import Changefeed.Proofs.Stream.Nesting
import Changefeed.Proofs.Checkpoint.Revision
import Changefeed.Proofs.Checkpoint.Atomic
import Changefeed.Proofs.Checkpoint.Reload
import Changefeed.Proofs.Checkpoint.Mirror
import Changefeed.Proofs.Stream.Trailing
import Changefeed.Proofs.Checkpoint.Sharing
import Changefeed.Proofs.Feed.Counting
import Changefeed.Proofs.Feed.Draining
import Changefeed.Proofs.Feed.Publishing
import Changefeed.Proofs.Stream.Silent
import Changefeed.Proofs.Stream.Failures
import Changefeed.Proofs.Feed.Endings
import Changefeed.Proofs.Feed.Requests
import Changefeed.Proofs.Feed.Gauge
import Changefeed.Proofs.Feed.Accounting
import Changefeed.Proofs.Feed.Failures
import Changefeed.Proofs.Feed.Resting
import Changefeed.Proofs.Feed.Stopping
import Changefeed.Proofs.Stream.Publication
import Changefeed.Proofs.Position.Spelling
import Changefeed.Proofs.Json.Flaws
import Changefeed.Proofs.Checkpoint.Entries
import Changefeed.Proofs.Checkpoint.Quarantine
import Changefeed.Proofs.Text.Utf8
import Changefeed.Proofs.Payload.Refusals
import Changefeed.Proofs.Catalog.Editing
import Changefeed.Proofs.Change.Assembly
import Changefeed.Proofs.Checkpoint.Cells
import Changefeed.Proofs.Checkpoint.Rewind
import Changefeed.Proofs.Checkpoint.Maximum
import Changefeed.Proofs.Checkpoint.Unfailing
import Changefeed.Proofs.Stream.Lockstep
import Changefeed.Proofs.Stream.Isolation
import Changefeed.Proofs.Change.Admission
import Changefeed.Proofs.Payload.Decoding
import Changefeed.Proofs.Checkpoint.Retry
import Changefeed.Proofs.Feed.StartUp
import Changefeed.Proofs.Catalog.History
import Changefeed.Proofs.Position.Grammar
import Changefeed.Proofs.Position.Halves
import Changefeed.Proofs.Position.Comparison
import Changefeed.Proofs.Settings.Loading
import Changefeed.Proofs.Text.Units
