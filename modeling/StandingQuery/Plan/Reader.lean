import StandingQuery.Plan.Record
import StandingQuery.Plan.Document
import StandingQuery.Schema.Reader

/-!
# Plans from JSON values

Each part of a plan is a record, tagged or not, with the fields listed here. What is read is
typed but need not be valid.

* `readSourceMember_eq`: the node that a node reads from is read from its member `source`.
-/

namespace StandingQuery.PlanReader

open Json

/-! ## Formats, schemas and contexts -/

/-- A format, by its name. -/
def readFormat (place : Place) (v : Value) : Read String := do
  let m ← Members.ofRecord "FormatInfo" v
  let name := m.slot 0 "format" readText
  m.settle place "FormatInfo" [name.status]
  name.value

def readFormats (place : Place) (v : Value) : Read Formats := do
  let m ← Members.ofRecord "Formats" v
  let key := m.slot 0 "keyFormat" (readFormat place)
  let value := m.slot 1 "valueFormat" (readFormat place)
  m.settle place "Formats" [key.status, value.status]
  return { key := ← key.value, value := ← value.value }

/-- A schema, by its text. -/
def readSchema (v : Value) : Read LogicalSchema := do
  (LogicalSchema.parse (← readText v)).mapError .schema

/-- The properties of a node, which are its context. -/
def readContext (place : Place) (v : Value) : Read QueryContext := do
  let m ← Members.ofRecord "StepProperties" v
  let context := m.slot 0 "queryContext" readText
  m.settle place "StepProperties" [context.status]
  return ⟨← context.value⟩

/-! ## Commands -/

/-- The tags of commands. -/
def commandVariants : List (String × Side) :=
  [(CreateSource.tagOf .stream, .stream), (CreateSource.tagOf .table, .table)]

def readCommand (place : Place) (v : Value) : Read CreateSource := do
  let (side, m) ← readTagged place "DdlCommand" commandVariants v
  let name := m.slot 0 "sourceName" readText
  let schema := m.slot 1 "schema" readSchema
  let topic := m.slot 2 "topicName" readText
  let formats := m.slot 3 "formats" (readFormats .inner)
  let orReplace := m.slot 4 "orReplace" readBool (some false)
  let timestamp := m.slot 5 "timestampColumn" (readNullable readText) (some none)
  m.settle .inner "CreateSourceCommand"
    [name.status, schema.status, topic.status, formats.status, orReplace.status,
     timestamp.status]
  return {
    side := side, name := ← name.value, schema := ← schema.value, topic := ← topic.value,
    formats := ← formats.value, orReplace := ← orReplace.value,
    timestamp := ← timestamp.value }

/-! ## Nodes -/

/-- The tags of nodes. -/
def nodeVariants : List (String × NodeKind) := NodeKind.all.map fun k => (k.tag, k)

/-- The fields of a source that reads a topic as a stream or, without a store of its own, as a
table. -/
def readSource (kind : SourceKind) (context : Slot QueryContext) (m : Members) :
    Read PlanNode := do
  let topic := m.slot 1 "topicName" readText
  let formats := m.slot 2 "formats" (readFormats .inner)
  let timestamp := m.slot 3 "timestampColumn" (readNullable readText) (some none)
  let schema := m.slot 4 "sourceSchema" readSchema
  m.settle .inner "Source"
    [context.status, topic.status, formats.status, timestamp.status, schema.status]
  return .source {
    kind := kind, context := ← context.value, topic := ← topic.value,
    formats := ← formats.value, timestamp := ← timestamp.value, schema := ← schema.value }

/-- The fields of a source that keeps a table in a store with formats of its own. -/
def readMaterializedSource (context : Slot QueryContext) (m : Members) : Read PlanNode := do
  let topic := m.slot 1 "topicName" readText
  let formats := m.slot 2 "formats" (readFormats .inner)
  let timestamp := m.slot 3 "timestampColumn" (readNullable readText) (some none)
  let schema := m.slot 4 "sourceSchema" readSchema
  let store := m.slot 5 "stateStoreFormats" (readFormats .inner)
  m.settle .inner "MaterializedSource"
    [context.status, topic.status, formats.status, timestamp.status, schema.status,
     store.status]
  return .source {
    kind := .materialized (← store.value), context := ← context.value, topic := ← topic.value,
    formats := ← formats.value, timestamp := ← timestamp.value, schema := ← schema.value }

def readFilter (side : Side) (context : Slot QueryContext) (input : Slot PlanNode)
    (m : Members) : Read PlanNode := do
  let expression := m.slot 2 "filterExpression" readText
  m.settle .inner "Filter" [context.status, input.status, expression.status]
  return .step (.filter side (← expression.value)) (← context.value) (← input.value)

def readSelect (side : Side) (context : Slot QueryContext) (input : Slot PlanNode)
    (m : Members) : Read PlanNode := do
  let keys := m.slot 2 "keyColumnNames" (readList readText)
  let expressions := m.slot 3 "selectExpressions" (readList readText)
  m.settle .inner "Select" [context.status, input.status, keys.status, expressions.status]
  return .step (.select side (← keys.value) (← expressions.value)) (← context.value)
    (← input.value)

def readGroupByKey (context : Slot QueryContext) (input : Slot PlanNode) (m : Members) :
    Read PlanNode := do
  let formats := m.slot 2 "internalFormats" (readFormats .inner)
  m.settle .inner "GroupByKey" [context.status, input.status, formats.status]
  return .step (.groupByKey (← formats.value)) (← context.value) (← input.value)

def readAggregate (context : Slot QueryContext) (input : Slot PlanNode) (m : Members) :
    Read PlanNode := do
  let formats := m.slot 2 "internalFormats" (readFormats .inner)
  let passed := m.slot 3 "nonAggregateColumns" (readList readText)
  let functions := m.slot 4 "aggregationFunctions" (readList readText)
  m.settle .inner "Aggregate"
    [context.status, input.status, formats.status, passed.status, functions.status]
  return .step (.aggregate (← formats.value) (← passed.value) (← functions.value))
    (← context.value) (← input.value)

def readSink (side : Side) (context : Slot QueryContext) (input : Slot PlanNode)
    (m : Members) : Read PlanNode := do
  let formats := m.slot 2 "formats" (readFormats .inner)
  let topic := m.slot 3 "topicName" readText
  let timestamp := m.slot 4 "timestampColumn" (readNullable readText) (some none)
  m.settle .inner "Sink"
    [context.status, input.status, formats.status, topic.status, timestamp.status]
  return .step
    (.sink side { formats := ← formats.value, topic := ← topic.value,
                  timestamp := ← timestamp.value })
    (← context.value) (← input.value)

/-- A node of a kind, from its members; `source` is what they give for the node it reads from. -/
def readBody (kind : NodeKind) (m : Members) (source : Option (Read PlanNode)) :
    Read PlanNode :=
  let context := m.slot 0 "properties" (readContext .inner)
  let input : Slot PlanNode := { name := "source", found := source }
  match kind with
  | .streamSource => readSource .stream context m
  | .tableSource => readSource .table context m
  | .tableSourceV2 => readMaterializedSource context m
  | .streamFilter => readFilter .stream context input m
  | .tableFilter => readFilter .table context input m
  | .streamSelect => readSelect .stream context input m
  | .tableSelect => readSelect .table context input m
  | .streamGroupByKey => readGroupByKey context input m
  | .streamAggregate => readAggregate context input m
  | .streamSink => readSink .stream context input m
  | .tableSink => readSink .table context input m

mutual

/-- A node, with everything it reads from. -/
def readNode (place : Place) (v : Value) : Read PlanNode :=
  match v with
  | .object ms => do
    let (kind, m) ← readTagged place "PhysicalPlanNode" nodeVariants (.object ms)
    readBody kind m (readSourceMember ms)
  | .array vs => do
    let (kind, m) ← readTagged place "PhysicalPlanNode" nodeVariants (.array vs)
    readBody kind m (readSourceItem 2 vs)
  | v => do
    let (kind, m) ← readTagged place "PhysicalPlanNode" nodeVariants v
    readBody kind m none

/-- The node in the member `source` of an object. -/
def readSourceMember : List (String × Value) → Option (Read PlanNode)
  | [] => none
  | (k, v) :: ms => if k = "source" then some (readNode .inner v) else readSourceMember ms

/-- The node at an index of an array. -/
def readSourceItem : Nat → List Value → Option (Read PlanNode)
  | _, [] => none
  | 0, v :: _ => some (readNode .inner v)
  | index + 1, _ :: vs => readSourceItem index vs

end

theorem readSourceMember_eq (ms : List (String × Value)) :
    readSourceMember ms = (ms.lookup "source").map (readNode .inner) := by
  induction ms with
  | nil => simp [readSourceMember]
  | cons m ms ih =>
    obtain ⟨k, v⟩ := m
    by_cases h : k = "source"
    · simp [readSourceMember, h]
    · have h' : ("source" == k) = false := by simpa using Ne.symm h
      simp [readSourceMember, List.lookup_cons, h, h', ih]

theorem readSourceItem_eq (index : Nat) (vs : List Value) :
    readSourceItem index vs = vs[index]?.map (readNode .inner) := by
  induction vs generalizing index with
  | nil => simp [readSourceItem]
  | cons v vs ih =>
    cases index with
    | zero => simp [readSourceItem]
    | succ index => simpa [readSourceItem] using ih index

/-! ## Queries, entries and documents -/

def readQuery (place : Place) (v : Value) : Read QueryPlan := do
  let m ← Members.ofRecord "QueryPlan" v
  let sources := m.slot 0 "sources" (readList readText)
  let sink := m.slot 1 "sink" readText
  let physicalPlan := m.slot 2 "physicalPlan" (readNode place)
  let id := m.slot 3 "queryId" readText
  m.settle place "QueryPlan" [sources.status, sink.status, physicalPlan.status, id.status]
  return {
    sources := ← sources.value, sink := ← sink.value, physicalPlan := ← physicalPlan.value,
    id := ← id.value }

def readEntry (place : Place) (v : Value) : Read PlanEntry := do
  let (_, m) ← readTagged place "PlanEntry" [(PlanEntry.tag, ())] v
  let statement := m.slot 0 "statementText" readText
  let command := m.slot 1 "ddlCommand" (readCommand .inner)
  let query := m.slot 2 "queryPlan" (readNullable (readQuery .inner)) (some none)
  m.settle .inner "StatementPlan" [statement.status, command.status, query.status]
  return { statement := ← statement.value, command := ← command.value, query := ← query.value }

def readConfigs : Value → Read ConfigSnapshot
  | .object ms => do
    let es ← ms.mapM fun m => (readNullable readText m.2).map fun value => (m.1, value)
    return ConfigSnapshot.ofList es
  | v => .error (.wrongType v.kindText "a map")

def readDocument (v : Value) : Read PlanDocument := do
  let m ← Members.ofRecord "PlanDocument" v
  let plan := m.slot 0 "plan" (readList (readEntry .outer))
  let configs := m.slot 1 "configs" readConfigs
  m.settle .outer "PlanDocument" [plan.status, configs.status]
  return { plan := ← plan.value, configs := ← configs.value }

end StandingQuery.PlanReader
