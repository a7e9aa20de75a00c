import RoutingPlan.Conversation
import RoutingPlan.Main
import RoutingPlan.Proofs.Definition.Assemble
import RoutingPlan.Proofs.Definition.Interpreter
import RoutingPlan.Proofs.Definition.Live
import RoutingPlan.Proofs.Definition.NormalForm
import RoutingPlan.Proofs.Definition.Violation
import RoutingPlan.Proofs.Keyed
import RoutingPlan.Proofs.Plan.Builder
import RoutingPlan.Proofs.Plan.Loaded
import RoutingPlan.Proofs.Plan.Part
import RoutingPlan.Proofs.Plan.Tree
import RoutingPlan.Proofs.Run.Outcome
import RoutingPlan.Reading
import RoutingPlan.Rehearsal.Stage
import RoutingPlan.Rehearsal.Support
import RoutingPlan.Text.Quoted
import RoutingPlan.Proofs.Run.Audit
import RoutingPlan.Proofs.Run.Route
import RoutingPlan.Proofs.Run.Protocol
import RoutingPlan.Proofs.Definition.Reload
import RoutingPlan.Proofs.Plan.Position
import RoutingPlan.Proofs.Run.Failure
import RoutingPlan.Proofs.Definition.Change
import RoutingPlan.Proofs.Definition.Graft
import RoutingPlan.Proofs.Plan.Representation
import RoutingPlan.Proofs.Run.Resemblance
import RoutingPlan.Proofs.Run.Sequence
import RoutingPlan.Proofs.Run.Sharing
import RoutingPlan.Proofs.Run.Termination
import RoutingPlan.Proofs.Conversation.Transcript
import RoutingPlan.Proofs.Journal.Interleaving
import RoutingPlan.Proofs.Definition.TomlText
import RoutingPlan.Proofs.Settings.Expansion
import RoutingPlan.Proofs.Plan.JsonText
import RoutingPlan.Proofs.Run.Drive
import RoutingPlan.Proofs.Run.Interleaving
import RoutingPlan.Proofs.Conversation.Chat
import RoutingPlan.Proofs.Settings.Layout
import RoutingPlan.Proofs.Settings.Containment
import RoutingPlan.Proofs.Plan.Order
import RoutingPlan.Proofs.Run.Guided
import RoutingPlan.Proofs.Plan.Operations
import RoutingPlan.Proofs.Run.Built
import RoutingPlan.Proofs.Journal.Account
import RoutingPlan.Proofs.Run.Past
import RoutingPlan.Proofs.Run.Plain
import RoutingPlan.Proofs.Plan.Trail
import RoutingPlan.Proofs.Run.Record
import RoutingPlan.Proofs.Definition.Spelling
import RoutingPlan.Proofs.Json.Compact
import RoutingPlan.Proofs.Journal.Lines
import RoutingPlan.Proofs.Definition.Equivalence
import RoutingPlan.Proofs.Plan.Placement
import RoutingPlan.Proofs.Rehearsal.Keyword
import RoutingPlan.Proofs.Registry
import RoutingPlan.Proofs.Bot
import RoutingPlan.Proofs.Registry.Operations
