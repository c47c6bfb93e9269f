import Statechart.Checkpoint.Binary
import Statechart.Graph.Query
import Statechart.Machine.Draft
import Statechart.Machine.Waiting
import Statechart.Notification.Logging
import Statechart.Rehearsal.Notation
import Statechart.Rehearsal.Stage
import Statechart.Proofs.Graph.Climb
import Statechart.Proofs.Configuration.Consistency
import Statechart.Proofs.Graph.Validated
import Statechart.Proofs.Plan.Exits
import Statechart.Proofs.Plan.Entries
import Statechart.Proofs.Plan.External
import Statechart.Proofs.Plan.Outcome
import Statechart.Proofs.Plan.Transfer
import Statechart.Proofs.Configuration.Restored
import Statechart.Proofs.Machine.Definition
import Statechart.Proofs.Machine.Session
import Statechart.Proofs.Machine.Worker
import Statechart.Proofs.Machine.Run
import Statechart.Proofs.Machine.Tracking
import Statechart.Proofs.Machine.Steady
import Statechart.Proofs.Machine.Response
import Statechart.Proofs.Machine.Service
import Statechart.Proofs.Machine.Resume
import Statechart.Proofs.Table.Candidates
import Statechart.Proofs.Machine.Selection
import Statechart.Proofs.Machine.Restoration
import Statechart.Proofs.Machine.Order
import Statechart.Proofs.Machine.Telling
import Statechart.Proofs.Graph.Diagnosis
import Statechart.Proofs.Graph.Verdict
import Statechart.Proofs.Machine.Evolution
import Statechart.Proofs.Machine.Crossings
import Statechart.Proofs.Machine.Shutdown
import Statechart.Proofs.Machine.Attempts
import Statechart.Proofs.Machine.Perseverance
import Statechart.Proofs.Codec.Checkpoint
import Statechart.Proofs.Codec.Truncation
import Statechart.Proofs.Graph.Numbering
import Statechart.Proofs.Graph.Layout
import Statechart.Proofs.Machine.Awaiting
import Statechart.Proofs.Machine.Observation
import Statechart.Proofs.Machine.Scope
import Statechart.Proofs.Machine.Pages
import Statechart.Proofs.Machine.Retention
import Statechart.Proofs.Machine.Lineage
import Statechart.Proofs.Machine.Refusals
import Statechart.Proofs.Plan.Independence
import Statechart.Proofs.Plan.Defaults
import Statechart.Proofs.Machine.Defaults
import Statechart.Proofs.Table.Registration
import Statechart.Proofs.Table.Rows
import Statechart.Proofs.Checked.Walks
import Statechart.Proofs.Checked.Plans
import Statechart.Proofs.Checked.Selection
import Statechart.Proofs.Checked.Processing
import Statechart.Proofs.Machine.Safety
import Statechart.Proofs.Graph.Kinship
import Statechart.Proofs.Graph.Reordering
import Statechart.Proofs.Machine.Contexts
import Statechart.Proofs.Machine.Noninterference
