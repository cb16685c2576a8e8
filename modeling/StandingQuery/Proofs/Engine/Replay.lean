import StandingQuery.Proofs.Engine.Restart
import StandingQuery.Proofs.Plan.Persistence

/-!
# Replaying plans

A plan carries the configuration of the engine that wrote it, as a snapshot. An engine that starts
the plan reads the snapshot and never its own configuration, so engines that are configured in
different ways prepare the same queries, and do the same to their surroundings. The names of
runtimes and the replicas of sinks are those that the writing engine would give itself.

* `EngineConfig.applicationId_snapshot`: the snapshot and the engine agree on names.
* `Engine.start_congr`: starting a plan does not depend on the engine's configuration.
* `Engine.replay_of_snapshot`: what engines make of a plan that another has written.
-/

namespace StandingQuery

/-! ## Defaults on both sides -/

namespace EngineConfig

theorem serviceId_snapshot (c : EngineConfig) : c.snapshot.serviceId = c.serviceId := by
  rw [ConfigSnapshot.serviceId, c.value?_snapshot, serviceId]

theorem persistentPrefix_snapshot (c : EngineConfig) :
    c.snapshot.persistentPrefix = c.persistentPrefix := by
  rw [ConfigSnapshot.persistentPrefix, c.value?_snapshot, persistentPrefix]

/-- A runtime is named as the engine that wrote the plan would name it. -/
theorem applicationId_snapshot (c : EngineConfig) (id : String) :
    c.snapshot.applicationId id = internalNamespace ++ c.serviceId ++ c.persistentPrefix ++ id := by
  rw [ConfigSnapshot.applicationId, serviceId_snapshot, persistentPrefix_snapshot]

end EngineConfig

namespace Engine

/-! ## Engines that are configured in different ways -/

variable {engine engine' : Engine} {c : EngineConfig} {configs : ConfigSnapshot} {q : QueryPlan}
  {b : Broker} {p : PersistentQuery}

theorem startQuery_congr (h : engine.groupPrefix = engine'.groupPrefix) (configs : ConfigSnapshot)
    (q : QueryPlan) (s : Surroundings) :
    engine.startQuery configs q s = engine'.startQuery configs q s := by
  simp only [startQuery, h]

theorem startQueries_congr (h : engine.groupPrefix = engine'.groupPrefix)
    (configs : ConfigSnapshot) (prepared : List PersistentQuery) (qs : List QueryPlan)
    (s : Surroundings) :
    engine.startQueries configs prepared qs s = engine'.startQueries configs prepared qs s := by
  induction qs generalizing prepared s with
  | nil => rfl
  | cons q qs ih => simp only [startQueries, startQuery_congr h, ih]

/-- What a start comes to, and what it does, does not depend on the engine's configuration. -/
theorem start_congr (h : engine.groupPrefix = engine'.groupPrefix) (plan : List UInt8)
    (s : Surroundings) : engine.start plan s = engine'.start plan s := by
  simp only [start, startQueries_congr h]

/-! ## Handles of a plan that was written -/

/-- The handle of a query is as the engine with configuration `c` would have it. -/
structure HandleUnder (c : EngineConfig) (q : QueryPlan) (p : PersistentQuery) : Prop where
  topology : p.topology = .ofQuery q c.snapshot
  applicationId : p.topology.applicationId =
    "_confluent-ksql-" ++ c.serviceId ++ c.persistentPrefix ++ q.id
  replicas : c.value? "ksql.sink.replicas" = none ∧ p.sink.replicas = 1 ∨
    ∃ text, c.value? "ksql.sink.replicas" = some text ∧
      ConfigValue.readCount text = .ok p.sink.replicas ∧ 1 ≤ p.sink.replicas

theorem HandleOf.handleUnder (h : HandleOf c.snapshot b q p) : HandleUnder c q p := by
  refine ⟨h.topology, ?_, ?_⟩
  · rw [h.topology]
    exact c.applicationId_snapshot q.id
  · obtain ⟨_, hsized⟩ := h.sized
    obtain ⟨_, replicas, _, hreplicas, hsink⟩ := forSink_eq_ok_iff.1 hsized
    rw [hsink, ← c.value?_snapshot]
    exact TopicRequirement.sinkReplicas_eq_ok_iff.1 hreplicas

/-! ## Replaying -/

/-- A plan that an engine with configuration `c` has written is read as it was written. Engines
that start it come to the same and do the same to their surroundings, however they are configured,
and if they succeed, all names and replicas are those that `c` gives. -/
theorem replay_of_snapshot {d : PlanDocument} {c : EngineConfig} (hconfigs : d.configs = c.snapshot)
    (hvalid : d.validate = .ok ())
    (hcommands : ∀ e ∈ d.plan, ∀ column ∈ e.command.schema.columns, column.type.depth ≤ 64)
    (hsources : ∀ q ∈ d.queries, ∀ source, q.physicalPlan.leaf = .source source →
      ∀ column ∈ source.schema.columns, column.type.depth ≤ 64)
    (hshort : ∀ q ∈ d.queries, q.physicalPlan.steps.length ≤ 121) (c₁ c₂ : EngineConfig)
    (groupPrefix : String) (s : Surroundings) :
    PlanDocument.decode d.encode = .ok d ∧
    (⟨c₁, groupPrefix⟩ : Engine).start d.encode s = (⟨c₂, groupPrefix⟩ : Engine).start d.encode s ∧
    ∀ handles, ((⟨c₁, groupPrefix⟩ : Engine).start d.encode s).1 = .ok handles →
      List.Forall₂ (HandleUnder c) d.queries handles := by
  have hfit : d.WithinLimit := d.withinLimit_iff.2 ⟨hcommands, hsources⟩
  have hread : PlanDocument.decode d.encode = .ok d :=
    PlanDocument.decode_encode_eq_ok_iff.2 ⟨⟨hvalid, hfit, hshort⟩, rfl⟩
  refine ⟨hread, ?_, ?_⟩
  · apply start_congr
    rfl
  · intro handles hok
    rw [start_of_decode hread, hconfigs] at hok
    exact (handleOf_of_startQueries (Prod.ext hok rfl)).imp fun _ _ h => h.handleUnder

/-- A configuration in which nothing that a plan depends on has its default. -/
def writerConfig : EngineConfig := .ofList [
  ("ksql.service.id", "s_"), ("ksql.persistent.prefix", "p_"), ("ksql.sink.replicas", "2")]

/-- The two copies, as an engine with that configuration writes them. -/
def writtenDocument : PlanDocument := { relayDocument with configs := writerConfig.snapshot }

/-- An engine without configuration and one with another service start the copies alike. -/
theorem replay_writtenDocument :
    ∃ handles,
      ((⟨{}, "g"⟩ : Engine).start writtenDocument.encode { broker := inputBroker }).1 =
        .ok handles ∧
      ((⟨.ofList [("ksql.service.id", "t_"), ("ksql.sink.replicas", "9")], "g"⟩ : Engine).start
        writtenDocument.encode { broker := inputBroker }).1 = .ok handles ∧
      List.Forall₂ (HandleUnder writerConfig) writtenDocument.queries handles := by
  have hfit : writtenDocument.WithinLimit := by
    intro e he
    rcases List.mem_pair.1 he with rfl | rfl
    · exact copyEntry_withinLimit "a" "b" "q"
    · exact copyEntry_withinLimit "b" "c" "r"
  obtain ⟨hcommands, hsources⟩ := writtenDocument.withinLimit_iff.1 hfit
  obtain ⟨hread, hsame, hhandles⟩ := replay_of_snapshot (d := writtenDocument) (c := writerConfig)
    rfl (by decide +kernel) hcommands hsources (by decide +kernel) {}
    (.ofList [("ksql.service.id", "t_"), ("ksql.sink.replicas", "9")]) "g"
    { broker := inputBroker }
  obtain ⟨handles, hok⟩ : ∃ handles,
      ((⟨{}, "g"⟩ : Engine).start writtenDocument.encode { broker := inputBroker }).1 =
        .ok handles := by
    rw [start_of_decode hread]
    exact ⟨_, rfl⟩
  exact ⟨handles, hok, hsame ▸ hok, hhandles handles hok⟩

end Engine

end StandingQuery
