import StandingQuery.Plan.Document

/-!
# A sample document

A stream over a topic and a query that counts its rows by key, with a small configuration.
-/

namespace StandingQuery.Sample

/-- The id of the sample query. -/
def queryId : String := "CTAS_COUNTS_0"

/-- Keys in the common format, values in JSON. -/
def formats : Formats := ⟨"KAFKA", "JSON"⟩

def inputSchema : LogicalSchema :=
  ⟨[⟨"ID", .simple .integer, true⟩, ⟨"VAL", .simple .integer, false⟩], by decide⟩

def countsSchema : LogicalSchema :=
  ⟨[⟨"ID", .simple .integer, true⟩, ⟨"CNT", .simple .bigint, false⟩], by decide⟩

def inputEntry : PlanEntry where
  statement := "CREATE STREAM INPUT (ID INTEGER KEY, VAL INTEGER) " ++
    "WITH (kafka_topic='input', value_format='JSON');"
  command := {
    side := .stream, name := "INPUT", schema := inputSchema, topic := "input",
    formats := formats, orReplace := false, timestamp := none }
  query := none

/-- The plan of the counting query. -/
def countingPlan : PlanNode :=
  .step (.sink .table { formats := formats, topic := "COUNTS", timestamp := none }) ⟨"COUNTS"⟩ <|
  .step (.select .table ["ID"] ["KSQL_AGG_VARIABLE_0 AS CNT"]) ⟨"Aggregate/Project"⟩ <|
  .step (.aggregate formats ["ID", "VAL"] ["COUNT(VAL)"]) ⟨"Aggregate/Aggregate"⟩ <|
  .step (.groupByKey formats) ⟨"Aggregate/GroupBy"⟩ <|
  .source {
    kind := .stream, context := ⟨"KsqlTopic/Source"⟩, topic := "input", formats := formats,
    timestamp := none, schema := inputSchema }

/-- The statement that counts the rows of the input stream. -/
def countingEntry : PlanEntry where
  statement := "CREATE TABLE COUNTS AS SELECT ID, COUNT(VAL) AS CNT " ++
    "FROM INPUT GROUP BY ID EMIT CHANGES;"
  command := {
    side := .table, name := "COUNTS", schema := countsSchema, topic := "COUNTS",
    formats := formats, orReplace := false, timestamp := none }
  query := some {
    sources := ["INPUT"], sink := "COUNTS", physicalPlan := countingPlan, id := queryId }

def configs : ConfigSnapshot :=
  .ofList [
    (ConfigKey.serviceId, some "default_"),
    (ConfigKey.persistentPrefix, some "query_"),
    (ConfigKey.sinkReplicas, some "1"),
    ("ksql.schema.registry.url", none)]

def document : PlanDocument where
  plan := [inputEntry, countingEntry]
  configs := configs

end StandingQuery.Sample
