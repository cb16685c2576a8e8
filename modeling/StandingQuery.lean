import StandingQuery.Corpus.HistoricalPlan
import StandingQuery.Engine.PersistentQuery
import StandingQuery.Plan.Sample
import StandingQuery.Proofs.Json.PrintedText
import StandingQuery.Proofs.Json.Nesting
import StandingQuery.Proofs.Schema.PrintedSchemas
import StandingQuery.Proofs.Plan.Fields
import StandingQuery.Proofs.Plan.WrittenPlans
import StandingQuery.Proofs.Plan.Persistence
import StandingQuery.Proofs.Plan.TagCoverage
import StandingQuery.Proofs.Plan.ChangelogTopics
import StandingQuery.Proofs.Topic.Calls
import StandingQuery.Proofs.Topic.Upkeep
import StandingQuery.Proofs.Lifecycle.Gauges
import StandingQuery.Proofs.Lifecycle.Histories
import StandingQuery.Proofs.Engine.Preparation
import StandingQuery.Proofs.Topic.Outcome
import StandingQuery.Proofs.Topic.Callers
import StandingQuery.Proofs.Engine.Failure
import StandingQuery.Proofs.Plan.UnknownMembers
import StandingQuery.Proofs.Plan.TagVerdict
import StandingQuery.Proofs.Corpus.Verdicts
import StandingQuery.Proofs.Plan.FrozenTopology
import StandingQuery.Proofs.Engine.Success
import StandingQuery.Proofs.Engine.Restart
import StandingQuery.Proofs.Engine.Replay
import StandingQuery.Proofs.Schema.Grammar
import StandingQuery.Proofs.Plan.Validity
import StandingQuery.Proofs.Topic.Acceptance
import StandingQuery.Proofs.Topic.Stability
import StandingQuery.Proofs.Engine.Creations
import StandingQuery.Proofs.Plan.ShapeTags
import StandingQuery.Proofs.Lifecycle.Snapshots
import StandingQuery.Proofs.Corpus.Loading
import StandingQuery.Proofs.Engine.Blame
import StandingQuery.Proofs.VersionText
import StandingQuery.Proofs.Plan.Schemas
import StandingQuery.Proofs.Plan.ContextPaths
import StandingQuery.Proofs.Schema.CursorRuns
