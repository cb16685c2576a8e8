import StandingQuery.Plan.Document

/-!
# The runtime topology of a query

The topology lists the operators of a query from the sink down to the source, each with its
tag, its context, its settings and the changelog topic of its state store. The names of state
stores derive from the query's application id, and so from the snapshot in the document.
Queries with the same topology text build the same runtime.
-/

namespace StandingQuery

/-- An operator of a topology. -/
structure TopologyNode where
  depth : Nat
  tag : String
  context : String
  /-- Names and values, in the order in which they are written. -/
  attributes : List (String × String)
  deriving DecidableEq, Repr

/-- The runtime that a query's plan builds. -/
structure PlanTopology where
  queryId : String
  applicationId : String
  nodes : List TopologyNode
  deriving DecidableEq, Repr

namespace PlanTopology

/-- A list of texts in brackets. -/
def listText (items : List String) : String := "[" ++ ", ".intercalate items ++ "]"

/-- The name of the state store of a node. -/
def storeName (applicationId : String) (context : QueryContext) (suffix : String) : String :=
  "-".intercalate ((applicationId :: context.segments) ++ [suffix])

/-- The changelog topic of a state store. -/
def changelog (applicationId : String) (context : QueryContext) (suffix : String) : String :=
  storeName applicationId context suffix ++ "-changelog"

/-- The attribute of a timestamp column, if there is one. -/
def timestampAttribute (timestamp : Option String) : List (String × String) :=
  timestamp.toList.map fun t => ("timestamp", t)

def sourceAttributes (applicationId : String) (s : TopicSource) : List (String × String) :=
  [("topic", s.topic), ("formats", s.formats.toText), ("schema", s.schema.toText)]
  ++ timestampAttribute s.timestamp
  ++ match s.kind with
    | .stream => []
    | .table => [("changelog", changelog applicationId s.context "Reduce")]
    | .materialized storeFormats =>
      [("storeFormats", storeFormats.toText),
       ("changelog", changelog applicationId s.context "Materialized")]

def operatorAttributes (applicationId : String) (context : QueryContext) :
    Operator → List (String × String)
  | .filter _ expression => [("filter", expression)]
  | .select _ keyColumns expressions =>
    [("keyColumnNames", listText keyColumns), ("selectExpressions", listText expressions)]
  | .groupByKey formats => [("internalFormats", formats.toText)]
  | .aggregate formats passed functions =>
    [("internalFormats", formats.toText), ("nonAggregateColumns", listText passed),
     ("aggregationFunctions", listText functions),
     ("changelog", changelog applicationId context "Materialize")]
  | .sink _ target =>
    [("topic", target.topic), ("formats", target.formats.toText)]
    ++ timestampAttribute target.timestamp

def attributes (applicationId : String) : PlanNode → List (String × String)
  | .source s => sourceAttributes applicationId s
  | .step op context _ => operatorAttributes applicationId context op

/-- The topology of a query under a configuration. -/
def ofQuery (q : QueryPlan) (configs : ConfigSnapshot) : PlanTopology :=
  let applicationId := configs.applicationId q.id
  { queryId := q.id
    applicationId := applicationId
    nodes := q.physicalPlan.steps.zipIdx.map fun (n, depth) => {
      depth := depth
      tag := n.tag
      context := n.context.path
      attributes := attributes applicationId n } }

/-- The changelog topics of a topology, in order. -/
def changelogTopics (t : PlanTopology) : List String :=
  t.nodes.flatMap fun n => (n.attributes.filter fun a => a.1 == "changelog").map Prod.snd

/-- Two spaces for each level. -/
def indent (depth : Nat) : String := String.ofList (List.replicate (2 * depth) ' ')

def nodeText (n : TopologyNode) : String :=
  indent n.depth ++ " > " ++ n.tag ++ " [" ++ n.context ++ "]\n" ++
    String.join (n.attributes.map fun a =>
      indent n.depth ++ "     " ++ a.1 ++ ": " ++ a.2 ++ "\n")

/-- The text of a topology: a line for the query and the lines of its nodes. -/
def toText (t : PlanTopology) : String :=
  "Query " ++ t.queryId ++ " (" ++ t.applicationId ++ ")\n" ++ String.join (t.nodes.map nodeText)

end PlanTopology

/-- The topologies of all queries of a document, with an empty line between two. -/
def PlanDocument.topologyText (d : PlanDocument) : String :=
  "\n".intercalate (d.queries.map fun q => (PlanTopology.ofQuery q d.configs).toText)

end StandingQuery
