import StandingQuery.Schema.Printer
import StandingQuery.Text.Segments

/-!
# Physical plans

A physical plan is a chain of nodes: operators, each reading from the node below it, down
to the source that reads a topic. A node has a tag, which names its kind and version, and a
context, a path that names it within its plan.

* `QueryContext.ofSegments_segments`, `QueryContext.segments_ne_nil`: a path is made up of its
  segments, of which there is at least one.
* `PlanNode.steps_ne_nil`: a chain has at least one node.
* `PlanNode.isSink_eq`: exactly the sinks have a target.
-/

namespace StandingQuery

/-! ## Contexts and formats -/

/-- A path with segments separated by slashes, such as `Aggregate/GroupBy`. -/
structure QueryContext where
  path : String
  deriving DecidableEq, Repr

namespace QueryContext

def ofSegments (segments : List String) : QueryContext := ⟨"/".intercalate segments⟩

def segments (c : QueryContext) : List String := Text.segments '/' c.path

theorem ofSegments_segments (c : QueryContext) : ofSegments c.segments = c := by
  cases c with
  | mk path => exact congrArg mk (Text.intercalate_segments '/' path)

theorem segments_ne_nil (c : QueryContext) : c.segments ≠ [] := by
  intro h
  exact List.splitOn_ne_nil '/' c.path.toList (List.map_eq_nil_iff.1 h)

end QueryContext

/-- The formats in which keys and values of records are written. -/
structure Formats where
  key : String
  value : String
  deriving DecidableEq, Repr

def Formats.toText (f : Formats) : String := f.key ++ "/" ++ f.value

/-! ## Sources and operators -/

/-- How a source turns a topic into rows. -/
inductive SourceKind
  | stream
  | table
  /-- A table kept in a state store that has formats of its own. -/
  | materialized (storeFormats : Formats)
  deriving DecidableEq, Repr

/-- A node that reads a topic. -/
structure TopicSource where
  kind : SourceKind
  context : QueryContext
  topic : String
  formats : Formats
  timestamp : Option String
  schema : LogicalSchema
  deriving DecidableEq

/-- A topic that a sink writes. -/
structure SinkTarget where
  formats : Formats
  topic : String
  timestamp : Option String
  deriving DecidableEq, Repr

/-- Whether an operator works on streams or on tables. -/
inductive Side
  | stream
  | table
  deriving DecidableEq, Repr

/-- What a node does with the rows it reads. -/
inductive Operator
  | filter (side : Side) (expression : String)
  | select (side : Side) (keyColumns expressions : List String)
  | groupByKey (formats : Formats)
  | aggregate (formats : Formats) (passed functions : List String)
  | sink (side : Side) (target : SinkTarget)
  deriving DecidableEq, Repr

/-- A physical plan, seen from its last node. -/
inductive PlanNode
  | source (s : TopicSource)
  | step (op : Operator) (context : QueryContext) (input : PlanNode)
  deriving DecidableEq

/-! ## Tags -/

/-- The kinds of nodes, with their versions, in the order in which messages list them. -/
inductive NodeKind
  | streamSource
  | tableSource
  | tableSourceV2
  | streamFilter
  | streamSelect
  | streamGroupByKey
  | streamAggregate
  | streamSink
  | tableFilter
  | tableSelect
  | tableSink
  deriving DecidableEq, Repr

namespace NodeKind

def all : List NodeKind :=
  [streamSource, tableSource, tableSourceV2, streamFilter, streamSelect, streamGroupByKey,
   streamAggregate, streamSink, tableFilter, tableSelect, tableSink]

def tag : NodeKind → String
  | streamSource => "streamSourceV1"
  | tableSource => "tableSourceV1"
  | tableSourceV2 => "tableSourceV2"
  | streamFilter => "streamFilterV1"
  | streamSelect => "streamSelectV1"
  | streamGroupByKey => "streamGroupByKeyV1"
  | streamAggregate => "streamAggregateV1"
  | streamSink => "streamSinkV1"
  | tableFilter => "tableFilterV1"
  | tableSelect => "tableSelectV1"
  | tableSink => "tableSinkV1"

end NodeKind

def SourceKind.nodeKind : SourceKind → NodeKind
  | stream => .streamSource
  | table => .tableSource
  | materialized _ => .tableSourceV2

def Operator.nodeKind : Operator → NodeKind
  | filter .stream _ => .streamFilter
  | filter .table _ => .tableFilter
  | select .stream _ _ => .streamSelect
  | select .table _ _ => .tableSelect
  | groupByKey _ => .streamGroupByKey
  | aggregate _ _ _ => .streamAggregate
  | sink .stream _ => .streamSink
  | sink .table _ => .tableSink

namespace PlanNode

def kind : PlanNode → NodeKind
  | source s => s.kind.nodeKind
  | step op _ _ => op.nodeKind

def tag (n : PlanNode) : String := n.kind.tag

/-- The path that names a node within its plan. -/
def context : PlanNode → QueryContext
  | source s => s.context
  | step _ context _ => context

/-! ## The chain -/

/-- The node from which a node reads. -/
def input? : PlanNode → Option PlanNode
  | source _ => none
  | step _ _ input => some input

/-- Whether a node reads a topic. -/
def isSource : PlanNode → Bool
  | source _ => true
  | step _ _ _ => false

/-- What a sink node writes. -/
def sinkTarget? : PlanNode → Option SinkTarget
  | step (.sink _ target) _ _ => some target
  | _ => none

/-- Whether a node writes a topic. -/
def isSink : PlanNode → Bool
  | step (.sink _ _) _ _ => true
  | _ => false

def sourceTopic? : PlanNode → Option String
  | source s => some s.topic
  | step _ _ _ => none

/-- The nodes of the chain, from this one down to the source. -/
def steps : PlanNode → List PlanNode
  | source s => [source s]
  | step op context input => step op context input :: input.steps

/-- The source at the end of the chain. -/
def leaf : PlanNode → PlanNode
  | source s => source s
  | step _ _ input => input.leaf

theorem steps_ne_nil (n : PlanNode) : n.steps ≠ [] := by cases n <;> simp [steps]

/-- Exactly the sinks have a target. -/
theorem isSink_eq (n : PlanNode) : n.isSink = n.sinkTarget?.isSome := by
  unfold isSink sinkTarget?
  split <;> rfl

end PlanNode

end StandingQuery
