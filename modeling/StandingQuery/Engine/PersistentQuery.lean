import StandingQuery.Engine.EngineConfig
import StandingQuery.Lifecycle.Tracker
import StandingQuery.Plan.Encoding
import StandingQuery.Plan.Topology
import StandingQuery.Topic.Reconcile

/-!
# Starting the queries of a plan

To start a plan, an engine reads it and prepares its queries in order: the topic of the source is
described to size the sink, the sink topic is brought to meet its requirement, and a listener
is made. If a query cannot be prepared, the listeners of those before it are closed.

* `Engine.start_of_decode_error`: a plan that cannot be read changes nothing.
-/

namespace StandingQuery

/-! ## Errors -/

/-- Why an engine cannot do what it was asked. -/
inductive EngineError
  | plan (e : PlanError)
  | topic (e : TopicError)
  | broker (e : BrokerError)
  | observe (e : ObserveError)
  | config (e : MissingConfig)
  | noSourceTopic (query : String)
  | tooManyPartitions (query topic : String)
  deriving DecidableEq, Repr

def EngineError.message : EngineError → String
  | .plan e => "Plan error: " ++ e.message
  | .topic e => "Topic error: " ++ e.message
  | .broker e => "Broker error: " ++ e.message
  | .observe e => "Metrics error: " ++ e.message
  | .config e => "Config error: " ++ e.message
  | .noSourceTopic query => s!"Query '{query}' cannot start: plan has no source topic"
  | .tooManyPartitions query source =>
    s!"Query '{query}' cannot start: source topic {source} has too many partitions"

/-! ## Engines -/

/-- An engine: its configuration and what stands before the group of its metrics. -/
structure Engine where
  config : EngineConfig := {}
  groupPrefix : String := ""
  deriving DecidableEq

/-- What an engine acts on: a broker and a tracker of listeners. -/
structure Surroundings where
  broker : Broker := {}
  tracker : Tracker := {}

/-- A query that has been started. -/
structure PersistentQuery where
  sink : TopicRequirement
  topology : PlanTopology
  /-- The index of its listener. -/
  listener : Nat
  deriving DecidableEq

namespace Engine

/-- The greatest number of partitions that a query can take over from its source, plus one. -/
def partitionLimit : Nat := 4294967296

/-- The call that a query's source is described by, and the sink it is sized for. -/
def prepareSink (q : QueryPlan) (configs : ConfigSnapshot) :
    BrokerProgram (Except EngineError TopicRequirement) :=
  match q.sourceTopic? with
  | none => .done (.error (.noSourceTopic q.id))
  | some source =>
    .ask (.describe source) fun
      | .error e => .done (.error (.broker e))
      | .ok description =>
        if partitionLimit ≤ description.partitionCount then
          .done (.error (.tooManyPartitions q.id source))
        else match TopicRequirement.forSink q configs description.partitionCount with
          | .error e => .done (.error (.topic e))
          | .ok sink =>
            (Reconciliation.ofRequirement sink).bind fun
              | .error e => .done (.error (.topic e))
              | .ok () => .done (.ok sink)

/-- Prepares a query. -/
def startQuery (engine : Engine) (configs : ConfigSnapshot) (q : QueryPlan) (s : Surroundings) :
    Except EngineError PersistentQuery × Surroundings :=
  match (prepareSink q configs).run s.broker with
  | (.error e, broker) => (.error e, { s with broker := broker })
  | (.ok sink, broker) =>
    match s.tracker.listen engine.groupPrefix q.id with
    | (.error e, tracker) => (.error (.observe e), ⟨broker, tracker⟩)
    | (.ok listener, tracker) =>
      (.ok { sink := sink, topology := .ofQuery q configs, listener := listener },
        ⟨broker, tracker⟩)

/-- Closes the listeners of some queries, in order. -/
def release (queries : List PersistentQuery) (s : Surroundings) : Surroundings :=
  { s with tracker := s.tracker.closeAll (queries.map PersistentQuery.listener) }

/-- Prepares queries after those already prepared; if one fails, all are released. -/
def startQueries (engine : Engine) (configs : ConfigSnapshot) (prepared : List PersistentQuery) :
    List QueryPlan → Surroundings → Except EngineError (List PersistentQuery) × Surroundings
  | [], s => (.ok prepared, s)
  | q :: qs, s =>
    match engine.startQuery configs q s with
    | (.error e, s) => (.error e, release prepared s)
    | (.ok p, s) => engine.startQueries configs (prepared ++ [p]) qs s

/-- Starts the queries of a plan. -/
def start (engine : Engine) (plan : List UInt8) (s : Surroundings) :
    Except EngineError (List PersistentQuery) × Surroundings :=
  match PlanDocument.decode plan with
  | .error e => (.error (.plan e), s)
  | .ok document => engine.startQueries document.configs [] document.queries s

theorem start_of_decode_error {engine : Engine} {plan : List UInt8} {s : Surroundings}
    {e : PlanError} (h : PlanDocument.decode plan = .error e) :
    engine.start plan s = (.error (.plan e), s) := by
  simp [start, h]

/-- Brings the engine's command topic to be as configured. -/
def ensureCommandTopic (engine : Engine) (s : Surroundings) :
    Except EngineError Unit × Surroundings :=
  let program := Reconciliation.ensureInternal engine.config.commandTopic engine.config.snapshot
  match program.run s.broker with
  | (.error e, broker) => (.error (.topic e), { s with broker := broker })
  | (.ok (), broker) => (.ok (), { s with broker := broker })

end Engine

end StandingQuery
