import PullStream.Backoff
import PullStream.Cancellation
import PullStream.Clockwork
import PullStream.Configuration.Conversion
import PullStream.Configuration.Environment
import PullStream.Configuration.Loading
import PullStream.Configuration.Overrides
import PullStream.Configuration.Value
import PullStream.Configuration.Yaml.Document
import PullStream.Configuration.Yaml.Scalar
import PullStream.Consumer
import PullStream.Element
import PullStream.Failure
import PullStream.Fanout
import PullStream.Feed
import PullStream.JobQueue
import PullStream.Machine
import PullStream.Number.Binary64
import PullStream.Number.Decimal
import PullStream.Number.Powers
import PullStream.Number.Shortest
import PullStream.Parallel
import PullStream.Parallel.Dispatcher
import PullStream.Parallel.Reorder
import PullStream.Polling
import PullStream.Proofs.Backoff
import PullStream.Proofs.Cancellation.Descent
import PullStream.Proofs.Cancellation.Lineage
import PullStream.Proofs.Cancellation.Spreading
import PullStream.Proofs.Clockwork
import PullStream.Proofs.Collecting
import PullStream.Proofs.Deciding
import PullStream.Proofs.Fanout
import PullStream.Proofs.Fanout.Clocked
import PullStream.Proofs.Fanout.Course
import PullStream.Proofs.Fanout.Dropping
import PullStream.Proofs.Fanout.Pace
import PullStream.Proofs.Fanout.Served
import PullStream.Proofs.Feed.Backlog
import PullStream.Proofs.Feed.Counter
import PullStream.Proofs.Feed.Interleaving
import PullStream.Proofs.Feed.Ledger
import PullStream.Proofs.Feed.Pacing
import PullStream.Proofs.Feed.Signals
import PullStream.Proofs.Finding
import PullStream.Proofs.Finishing
import PullStream.Proofs.Folding
import PullStream.Proofs.Grouping
import PullStream.Proofs.JobQueue
import PullStream.Proofs.JobQueue.Consuming
import PullStream.Proofs.Machine.Delivery
import PullStream.Proofs.Machine.Draining
import PullStream.Proofs.Machine.Exhaustion
import PullStream.Proofs.Machine.LastPull
import PullStream.Proofs.Machine.Pulls
import PullStream.Proofs.Machine.Reach
import PullStream.Proofs.Machine.Using
import PullStream.Proofs.Number.Value
import PullStream.Proofs.Outputs
import PullStream.Proofs.Parallel.Advancing
import PullStream.Proofs.Parallel.Bounds
import PullStream.Proofs.Parallel.Clocked
import PullStream.Proofs.Parallel.Consuming
import PullStream.Proofs.Parallel.Course
import PullStream.Proofs.Parallel.Draining
import PullStream.Proofs.Parallel.Dropping
import PullStream.Proofs.Parallel.Failing
import PullStream.Proofs.Parallel.Leaving
import PullStream.Proofs.Parallel.Ordered
import PullStream.Proofs.Parallel.Places
import PullStream.Proofs.Parallel.Progress
import PullStream.Proofs.Parallel.Reference
import PullStream.Proofs.Parallel.Reorder
import PullStream.Proofs.Parallel.Round
import PullStream.Proofs.Parallel.Rounds
import PullStream.Proofs.Parallel.Schedule
import PullStream.Proofs.Parallel.Sourced
import PullStream.Proofs.Parallel.Unordered
import PullStream.Proofs.Parallel.Winding
import PullStream.Proofs.Polling
import PullStream.Proofs.Pulling
import PullStream.Proofs.ReadAhead
import PullStream.Proofs.ReadAhead.Clocked
import PullStream.Proofs.ReadAhead.Course
import PullStream.Proofs.ReadAhead.Draining
import PullStream.Proofs.ReadAhead.Dropping
import PullStream.Proofs.ReadAhead.Pace
import PullStream.Proofs.Reading
import PullStream.Proofs.Sequence.Agreement
import PullStream.Proofs.Sequence.Batches
import PullStream.Proofs.Sequence.Buffering
import PullStream.Proofs.Sequence.Dropping
import PullStream.Proofs.Sequence.Exhaustion
import PullStream.Proofs.Sequence.FirstFailure
import PullStream.Proofs.Sequence.Flattening
import PullStream.Proofs.Sequence.Grouping
import PullStream.Proofs.Sequence.Multiplex
import PullStream.Proofs.Sequence.Parallel
import PullStream.Proofs.Sequence.Pipelines
import PullStream.Proofs.Sequence.Resuming
import PullStream.Proofs.Sequence.Retrying
import PullStream.Proofs.Sequence.Room
import PullStream.Proofs.Sequence.ShortCircuits
import PullStream.Proofs.Sequence.Transparency
import PullStream.Proofs.Sequence.Waiting
import PullStream.Proofs.Stage.Asking
import PullStream.Proofs.Stage.Batching
import PullStream.Proofs.Stage.Chaining
import PullStream.Proofs.Stage.Conversing
import PullStream.Proofs.Stage.Delivering
import PullStream.Proofs.Stage.Dialogue
import PullStream.Proofs.Stage.Ending
import PullStream.Proofs.Stage.Flattening
import PullStream.Proofs.Stage.Relaying
import PullStream.Proofs.Stage.Rendering
import PullStream.Proofs.Stage.Retelling
import PullStream.Proofs.Stage.Retried
import PullStream.Proofs.Stage.Scores
import PullStream.Proofs.Stage.Settling
import PullStream.Proofs.Stage.Taking
import PullStream.Proofs.Stage.Throttling
import PullStream.Proofs.Stage.Unfolding
import PullStream.Proofs.Stage.Via
import PullStream.Proofs.Task
import PullStream.Proofs.Telling
import PullStream.Proofs.Visiting
import PullStream.ReadAhead
import PullStream.Scenario.Delaying
import PullStream.Scenario.Feeding
import PullStream.Scenario.Function
import PullStream.Scenario.Log
import PullStream.Scenario.Pipeline
import PullStream.Scenario.Programs
import PullStream.Scenario.Queueing
import PullStream.Scenario.Source
import PullStream.Scenario.Stage
import PullStream.Scenario.Step
import PullStream.Scenario.Stopping
import PullStream.Sequence
import PullStream.Settings
import PullStream.Settings.Reading
import PullStream.Stage.Collecting
import PullStream.Stage.Elementwise
import PullStream.Stage.Nesting
import PullStream.Stage.Pacing
import PullStream.Stage.Retrying
import PullStream.Stage.Waiting
import PullStream.Text.Blank
import PullStream.Text.Digits
import PullStream.Text.Duration
import PullStream.Text.Json
import PullStream.Text.Lowercase
import PullStream.Timer
import PullStream.Transducer
