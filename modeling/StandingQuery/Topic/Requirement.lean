import StandingQuery.Config.Snapshot
import StandingQuery.Plan.Document
import StandingQuery.Topic.Broker

/-!
# Requirements on topics

A requirement says what a topic has to look like: how many partitions, pinned or not, at least
how many replicas, and with which settings it is made. Replica counts come from configuration
and are never zero.
-/

namespace StandingQuery

/-! ## Errors -/

/-- A setting that a requirement cannot be made from. -/
inductive RequirementFault
  | noSinkTopic (query : String)
  | value (e : ConfigValueError)
  | zeroReplicas (key : String)
  | zeroReplicationFactor (topic : String)
  deriving DecidableEq, Repr

def RequirementFault.message : RequirementFault → String
  | noSinkTopic query => s!"query {query} has no sink topic"
  | value e => "invalid plan: " ++ e.message
  | zeroReplicas key => s!"{key} must be at least 1"
  | zeroReplicationFactor topic => s!"replication factor for topic {topic} must be at least 1"

/-- Why a topic cannot be brought to meet a requirement. -/
inductive TopicError
  | topicExists (topic : String)
  | invalidPartitionCount (topic : String) (required found : Nat)
  | invalidReplicationFactor (topic : String) (partition required found : Nat)
  | config (fault : RequirementFault)
  | broker (e : BrokerError)
  deriving DecidableEq, Repr

def TopicError.message : TopicError → String
  | topicExists topic => s!"topic '{topic}' was created concurrently"
  | invalidPartitionCount topic required found =>
    s!"invalid partition count on topic '{topic}': required {required}, found {found}"
  | invalidReplicationFactor topic partition required found =>
    s!"invalid replication factor on topic '{topic}' partition {partition}: " ++
      s!"required at least {required}, found {found}"
  | config fault => "invalid topic configuration: " ++ fault.message
  | broker e => e.message

/-! ## Requirements -/

/-- What a topic has to look like. -/
structure TopicRequirement where
  topic : String
  partitions : Nat
  /-- Whether a topic with another number of partitions is refused. -/
  exactPartitions : Bool := true
  replicas : Nat
  config : TopicConfig := .empty
  deriving DecidableEq

namespace TopicRequirement

/-- How long records are kept. -/
def retentionKey : String := "retention.ms"

/-- What happens to records that are no longer kept. -/
def cleanupKey : String := "cleanup.policy"

/-- The longest retention: the largest number of 63 bits. -/
def longestRetention : String := "9223372036854775807"

/-- How many partitions internal topics have. -/
def internalPartitions : Nat := 1

/-- The number of replicas where none is configured. -/
def defaultReplicas : Nat := 1

def withAnyPartitions (r : TopicRequirement) : TopicRequirement :=
  { r with exactPartitions := false }

def withConfig (r : TopicRequirement) (key value : String) : TopicRequirement :=
  { r with config := r.config.insert key value }

/-- The requirement on an internal topic, whose records are kept for good. -/
def forInternal (topic : String) (replicas : Nat) : TopicRequirement :=
  ({ topic := topic, partitions := internalPartitions, replicas := replicas } :
      TopicRequirement).withConfig retentionKey longestRetention |>.withConfig cleanupKey "delete"

/-- The settings that are applied again to a topic that exists. -/
def reapplied (r : TopicRequirement) : TopicConfig :=
  r.config.filter fun key _ => key == retentionKey

/-- The number of replicas configured under a key, which must not be zero. -/
def replicas? (configs : ConfigSnapshot) (key : String) : Except TopicError (Option Nat) :=
  match configs.parsed? ConfigValue.readCount key with
  | .error e => .error (.config (.value e))
  | .ok (some 0) => .error (.config (.zeroReplicas key))
  | .ok r => .ok r

/-- The number of replicas of sink topics. -/
def sinkReplicas (configs : ConfigSnapshot) : Except TopicError Nat :=
  (replicas? configs ConfigKey.sinkReplicas).map fun r => r.getD defaultReplicas

/-- The number of replicas of internal topics: that of sink topics if it is configured. -/
def internalReplicas (configs : ConfigSnapshot) : Except TopicError Nat := do
  match ← replicas? configs ConfigKey.sinkReplicas with
  | some r => return r
  | none => return (← replicas? configs ConfigKey.internalReplicas).getD defaultReplicas

/-- The requirement on the topic that a query writes. -/
def forSink (q : QueryPlan) (configs : ConfigSnapshot) (partitions : Nat) :
    Except TopicError TopicRequirement :=
  match q.sinkTopic? with
  | none => .error (.config (.noSinkTopic q.id))
  | some topic => (sinkReplicas configs).map fun r =>
    { topic := topic, partitions := partitions, exactPartitions := false, replicas := r }

end TopicRequirement

end StandingQuery
