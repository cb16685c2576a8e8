import StandingQuery.Topic.Requirement

/-!
# Bringing topics to meet requirements

A missing topic is made as required. A topic that exists is described and checked: its number
of partitions, if that is pinned, and then the replicas of each partition. If it passes, the
settings that are to be kept are applied again. Nothing is ever resized or removed.

* `TopicRequirement.validate_ok_iff`: when a description meets a requirement.
-/

namespace StandingQuery

namespace TopicRequirement

/-- The first partition with too few replicas. -/
def underReplicated? (r : TopicRequirement) (d : TopicDescription) : Option Partition :=
  d.partitions.find? fun p => p.replicationFactor < r.replicas

/-- Whether a topic, as described, meets a requirement; a wrong number of partitions comes
before everything else. -/
def validate (r : TopicRequirement) (d : TopicDescription) : Except TopicError Unit :=
  if r.exactPartitions && d.partitionCount != r.partitions then
    .error (.invalidPartitionCount r.topic r.partitions d.partitionCount)
  else match r.underReplicated? d with
    | some p =>
      .error (.invalidReplicationFactor r.topic p.id r.replicas p.replicationFactor)
    | none => .ok ()

theorem validate_ok_iff (r : TopicRequirement) (d : TopicDescription) :
    r.validate d = .ok () ↔
      (r.exactPartitions = true → d.partitionCount = r.partitions) ∧
        ∀ p ∈ d.partitions, r.replicas ≤ p.replicationFactor := by
  unfold validate underReplicated?
  split
  · rename_i h
    simp_all
  · rename_i h
    have h' : r.exactPartitions = true → d.partitionCount = r.partitions := by simpa using h
    split
    · rename_i p hp
      have hm := List.mem_of_find?_eq_some hp
      have hl := List.find?_some hp
      simp only [decide_eq_true_eq] at hl
      simp only [reduceCtorEq, false_iff, not_and]
      intro _ hall
      exact absurd (hall p hm) (by omega)
    · rename_i hn
      simp only [List.find?_eq_none, decide_eq_true_eq, Nat.not_lt] at hn
      exact ⟨fun _ => ⟨h', hn⟩, fun _ => rfl⟩

end TopicRequirement

/-- The result of a program that brings a topic to meet a requirement. -/
abbrev Reconciliation := BrokerProgram (Except TopicError Unit)

namespace Reconciliation

/-- Makes the topic of a requirement. -/
def create (r : TopicRequirement) : Reconciliation :=
  .ask (.create r.topic r.partitions r.replicas r.config) fun
    | .ok () => .done (.ok ())
    | .error (.topicExists topic) => .done (.error (.topicExists topic))
    | .error e => .done (.error (.broker e))

/-- Applies the settings of a requirement again, if there are any to apply. -/
def reapply (r : TopicRequirement) : Reconciliation :=
  if r.reapplied.isEmpty then .done (.ok ())
  else .ask (.addConfig r.topic r.reapplied) fun
    | .ok _ => .done (.ok ())
    | .error e => .done (.error (.broker e))

/-- Checks the topic of a requirement and applies its settings again. -/
def update (r : TopicRequirement) : Reconciliation :=
  .ask (.describe r.topic) fun
    | .error e => .done (.error (.broker e))
    | .ok d =>
      match r.validate d with
      | .error e => .done (.error e)
      | .ok () => reapply r

/-- Brings the topic of a requirement to meet it. -/
def ofRequirement (r : TopicRequirement) : Reconciliation :=
  .ask (.topicExists r.topic) fun
    | .error e => .done (.error (.broker e))
    | .ok false => create r
    | .ok true => update r

/-- Brings a topic with one partition to have a number of replicas and some settings. -/
def ensureTopic (topic : String) (replicationFactor : Nat) (config : TopicConfig) :
    Reconciliation :=
  if replicationFactor = 0 then .done (.error (.config (.zeroReplicationFactor topic)))
  else ofRequirement {
    topic := topic, partitions := TopicRequirement.internalPartitions,
    replicas := replicationFactor, config := config }

/-- Brings an internal topic to be as configured. -/
def ensureInternal (topic : String) (configs : ConfigSnapshot) : Reconciliation :=
  match TopicRequirement.internalReplicas configs with
  | .error e => .done (.error e)
  | .ok replicas => ofRequirement (.forInternal topic replicas)

end Reconciliation

end StandingQuery
