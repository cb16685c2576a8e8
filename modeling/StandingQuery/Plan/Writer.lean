import StandingQuery.Json.Printer
import StandingQuery.Plan.Document

/-!
# Plans as JSON values

Each part of a plan is written as an object: its tag, if it has one, and its fields in the order
of their declaration. Optional fields without a value are left out.
-/

namespace StandingQuery

open Json

/-- An optional text as a list of at most one member. -/
def optionalMember (name : String) (text : Option String) : List (String × Value) :=
  text.toList.map fun t => (name, .string t)

def textsToJson (texts : List String) : Value := .array (texts.map .string)

/-- A format is an object that holds its name. -/
def formatToJson (name : String) : Value := .object [("format", .string name)]

/-- The formats of keys and values. -/
def Formats.toJson (f : Formats) : Value :=
  .object [("keyFormat", formatToJson f.key), ("valueFormat", formatToJson f.value)]

/-- A schema is its text. -/
def LogicalSchema.toJson (s : LogicalSchema) : Value := .string s.toText

/-- A context, as the properties of a node. -/
def QueryContext.toJson (c : QueryContext) : Value := .object [("queryContext", .string c.path)]

def CreateSource.toJson (c : CreateSource) : Value :=
  .object (
    [("@type", .string c.tag), ("sourceName", .string c.name), ("schema", c.schema.toJson),
     ("topicName", .string c.topic), ("formats", c.formats.toJson),
     ("orReplace", .bool c.orReplace)]
    ++ optionalMember "timestampColumn" c.timestamp)

/-- The fields of a source after its tag. -/
def TopicSource.members (s : TopicSource) : List (String × Value) :=
  [("properties", s.context.toJson), ("topicName", .string s.topic),
   ("formats", s.formats.toJson)]
  ++ optionalMember "timestampColumn" s.timestamp
  ++ [("sourceSchema", s.schema.toJson)]
  ++ match s.kind with
    | .stream | .table => []
    | .materialized storeFormats => [("stateStoreFormats", storeFormats.toJson)]

/-- The fields of an operator after its tag, its properties and the node it reads from. -/
def Operator.members : Operator → List (String × Value)
  | filter _ expression => [("filterExpression", .string expression)]
  | select _ keyColumns expressions =>
    [("keyColumnNames", textsToJson keyColumns), ("selectExpressions", textsToJson expressions)]
  | groupByKey formats => [("internalFormats", formats.toJson)]
  | aggregate formats passed functions =>
    [("internalFormats", formats.toJson), ("nonAggregateColumns", textsToJson passed),
     ("aggregationFunctions", textsToJson functions)]
  | sink _ target =>
    [("formats", target.formats.toJson), ("topicName", .string target.topic)]
    ++ optionalMember "timestampColumn" target.timestamp

/-- A node, with everything it reads from. -/
def PlanNode.toJson : PlanNode → Value
  | source s => .object (("@type", .string s.kind.nodeKind.tag) :: s.members)
  | step op context input =>
    .object (
      [("@type", .string op.nodeKind.tag), ("properties", context.toJson),
       ("source", input.toJson)]
      ++ op.members)

def QueryPlan.toJson (q : QueryPlan) : Value :=
  .object [("sources", textsToJson q.sources), ("sink", .string q.sink),
    ("physicalPlan", q.physicalPlan.toJson), ("queryId", .string q.id)]

def PlanEntry.toJson (e : PlanEntry) : Value :=
  .object (
    [("@type", .string PlanEntry.tag), ("statementText", .string e.statement),
     ("ddlCommand", e.command.toJson)]
    ++ e.query.toList.map fun q => ("queryPlan", q.toJson))

/-- A text or null. -/
def nullableToJson : Option String → Value
  | none => .null
  | some text => .string text

def ConfigSnapshot.toJson (s : ConfigSnapshot) : Value :=
  .object (s.entries.entries.map fun e => (e.1, nullableToJson e.2))

def PlanDocument.toJson (d : PlanDocument) : Value :=
  .object [("plan", .array (d.plan.map PlanEntry.toJson)), ("configs", d.configs.toJson)]

end StandingQuery
