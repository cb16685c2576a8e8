import StandingQuery.Config.Snapshot
import StandingQuery.Plan.Node

/-!
# Plan documents

A document is the plan of a list of statements together with the configuration in force when
it was written. Each statement creates a stream or a table, and may start a query that fills
it. `PlanDocument.validate` checks what has to hold between these parts.
-/

namespace StandingQuery

/-! ## Statements -/

/-- What a statement creates: a stream or a table over a topic. -/
structure CreateSource where
  side : Side
  name : String
  schema : LogicalSchema
  topic : String
  formats : Formats
  /-- Whether a source of the same name is replaced. -/
  orReplace : Bool
  timestamp : Option String
  deriving DecidableEq

namespace CreateSource

/-- The tag of the command that creates a stream or a table. -/
def tagOf : Side → String
  | .stream => "createStreamV1"
  | .table => "createTableV1"

def tag (c : CreateSource) : String := tagOf c.side

end CreateSource

/-- A query that runs until it is closed. -/
structure QueryPlan where
  /-- The names of the sources it reads. -/
  sources : List String
  /-- The name of the source it writes. -/
  sink : String
  physicalPlan : PlanNode
  id : String
  deriving DecidableEq

/-- The plan of a statement. -/
structure PlanEntry where
  statement : String
  command : CreateSource
  query : Option QueryPlan
  deriving DecidableEq

/-- The tag of all entries. -/
def PlanEntry.tag : String := "ksqlPlanV1"

/-- The plans of a list of statements, with the configuration they were made under. -/
structure PlanDocument where
  plan : List PlanEntry
  configs : ConfigSnapshot
  deriving DecidableEq

def PlanDocument.queries (d : PlanDocument) : List QueryPlan := d.plan.filterMap PlanEntry.query

namespace QueryPlan

def sinkTopic? (q : QueryPlan) : Option String := q.physicalPlan.sinkTarget?.map SinkTarget.topic

def sourceTopic? (q : QueryPlan) : Option String := q.physicalPlan.leaf.sourceTopic?

end QueryPlan

/-! ## Validation -/

/-- What is wrong between the parts of a plan. -/
inductive PlanFault
  | rootNotSink (context : String) (tag : String)
  | sinkBelowRoot (context : String)
  | emptyContext (tag : String) (depth : Nat)
  | duplicateContext (context : String)
  | emptyQueryId
  | sourceTwice (query source : String)
  | duplicateQueryId (query : String)
  | sinkMismatch (query sink created : String)
  | readBeforeCreated (query source : String)
  deriving DecidableEq, Repr

def PlanFault.message : PlanFault → String
  | rootNotSink context tag => s!"plan root '{context}' is a {tag}, not a sink"
  | sinkBelowRoot context => s!"sink '{context}' below the plan root"
  | emptyContext tag depth => s!"{tag} at depth {depth} has an empty query context"
  | duplicateContext context => s!"duplicate query context '{context}'"
  | emptyQueryId => "query plan has an empty query id"
  | sourceTwice query source => s!"query {query} lists source {source} twice"
  | duplicateQueryId query => s!"duplicate query id {query}"
  | sinkMismatch query sink created =>
    s!"query {query} writes {sink} but its statement creates {created}"
  | readBeforeCreated query source => s!"query {query} reads {source} before it is created"

namespace PlanNode

/-- The first fault among nodes that stand below the root from `depth` on, where the contexts in
`seen` have been used above them. -/
def checkSteps (seen : List String) (depth : Nat) : List PlanNode → Except PlanFault Unit
  | [] => .ok ()
  | n :: ns =>
    if 0 < depth ∧ n.isSink then .error (.sinkBelowRoot n.context.path)
    else if n.context.path = "" then .error (.emptyContext n.tag depth)
    else if n.context.path ∈ seen then .error (.duplicateContext n.context.path)
    else checkSteps (n.context.path :: seen) (depth + 1) ns

/-- A plan has a sink as its root and nowhere else, and its contexts are not empty and
different from each other. -/
def validateRoot (n : PlanNode) : Except PlanFault Unit :=
  if n.isSink then checkSteps [] 0 n.steps
  else .error (.rootNotSink n.context.path n.tag)

end PlanNode

namespace QueryPlan

/-- The first source that is listed a second time. -/
def repeatedSource? (seen : List String) : List String → Option String
  | [] => none
  | s :: ss => if s ∈ seen then some s else repeatedSource? (s :: seen) ss

/-- A query has an id, lists no source twice, and has a valid plan. -/
def validate (q : QueryPlan) : Except PlanFault Unit :=
  if q.id = "" then .error .emptyQueryId
  else match repeatedSource? [] q.sources with
    | some source => .error (.sourceTwice q.id source)
    | none => q.physicalPlan.validateRoot

end QueryPlan

namespace PlanDocument

/-- The first source of a query that is created only after the entries before it, whose
sources are `earlier`; `later` are the sources of its own entry and those after it. -/
def unreadySource? (earlier later : List String) (q : QueryPlan) : Option String :=
  q.sources.find? fun s => s ∉ earlier ∧ s ∈ later

/-- The first fault among entries after those whose sources are `earlier` and whose queries have
the ids `ids`. -/
def checkEntries (earlier ids : List String) : List PlanEntry → Except PlanFault Unit
  | [] => .ok ()
  | e :: es =>
    let created := e.command.name
    match e.query with
    | none => checkEntries (created :: earlier) ids es
    | some q => do
      q.validate
      if q.id ∈ ids then .error (.duplicateQueryId q.id)
      else if q.sink ≠ created then .error (.sinkMismatch q.id q.sink created)
      else match unreadySource? earlier (created :: es.map fun e => e.command.name) q with
        | some source => .error (.readBeforeCreated q.id source)
        | none => checkEntries (created :: earlier) (q.id :: ids) es

/-- Queries are valid and have different ids, each writes the source its statement creates, and
none reads a source that only its own or a later statement creates. -/
def validate (d : PlanDocument) : Except PlanFault Unit := checkEntries [] [] d.plan

end PlanDocument

end StandingQuery
