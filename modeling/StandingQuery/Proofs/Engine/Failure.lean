import StandingQuery.Proofs.Engine.Preparation

/-!
# Plans that cannot be started

A plan that cannot be started leaves no trace among the metrics and does no harm to the broker,
wherever it fails and whatever the broker does. The queries before the one that fails are
released, so the registry is as it was; of the broker's topics, none has changed, and
those that are new are sinks of queries up to the one that failed.

* `Engine.unharmed_of_start_error`: what a start that fails leaves behind.
-/

namespace StandingQuery

namespace Engine

variable {engine : Engine} {configs : ConfigSnapshot} {qs : List QueryPlan}
  {handles : List PersistentQuery} {s s' : Surroundings} {e : EngineError}

/-- Queries that are prepared do nothing to topics but to make their sinks. -/
theorem extended_startQueries (hsinks : ∀ q ∈ qs, ∃ sink, q.sinkTopic? = some sink)
    (h : engine.startQueries configs [] qs s = (.ok handles, s')) :
    Broker.Extended (SinkOf qs) s.broker s'.broker := by
  apply startQueries_preserves
    (I := fun qs _ s' => Broker.Extended (SinkOf qs) s.broker s'.broker) (.refl _ _) _ h
  intro before q handles s₁ p s₂ hq hbefore hrun
  obtain ⟨sink, hsink⟩ := hsinks q hq
  have hnext : Broker.Extended (SinkOf (before ++ [q])) s.broker
      (engine.startQuery configs q s₁).2.broker := extended_concat hbefore hsink
  rwa [hrun] at hnext

/-- A start that fails leaves the gauges and the listeners that were there, and all topics as they
were; if the plan cannot be read, it leaves everything as it was, and else each topic that is new
is the sink of a query up to the one that could not be prepared. -/
theorem unharmed_of_start_error {engine : Engine} {plan : List UInt8} {s : Surroundings}
    {e : EngineError} (h : (engine.start plan s).1 = .error e) :
    let s' := (engine.start plan s).2
    s'.tracker.registry.gauges = s.tracker.registry.gauges ∧
    s.tracker.listeners <+: s'.tracker.listeners ∧
    (∀ name t, s.broker.topics.find? name = some t → s'.broker.topics.find? name = some t) ∧
    (∀ fault, PlanDocument.decode plan = .error fault → s' = s) ∧
    ∀ d, PlanDocument.decode plan = .ok d → ∃ before q after handles s₁,
      d.queries = before ++ q :: after ∧
      engine.startQueries d.configs [] before s = (.ok handles, s₁) ∧
      (engine.startQuery d.configs q s₁).1 = .error e ∧
      ∀ name, s'.broker.topics.contains name = true →
        s.broker.topics.contains name = true ∨ ∃ p ∈ before ++ [q], p.sinkTopic? = some name := by
  simp only
  cases hdecode : PlanDocument.decode plan with
  | error fault =>
    rw [start_of_decode_error hdecode]
    exact ⟨rfl, List.prefix_refl _, fun _ _ ht => ht, fun _ _ => rfl, nofun⟩
  | ok d =>
    rw [start_of_decode hdecode] at h ⊢
    obtain ⟨before, q, after, handles, s₁, hqueries, hbefore, hq, hend⟩ := startQueries_error h
    have hsinks : ∀ p ∈ before ++ [q], ∃ sink, p.sinkTopic? = some sink := by
      intro p hp
      apply QueryPlan.exists_sinkTopic
      apply (PlanDocument.queries_of_decode hdecode).1
      rw [hqueries, List.append_cons]
      exact List.mem_append_left _ hp
    obtain ⟨sink, hsink⟩ := hsinks q (by simp)
    -- The query that failed may have made its sink before.
    have hbroker : Broker.Extended (SinkOf (before ++ [q])) s.broker
        (engine.startQuery d.configs q s₁).2.broker := by
      apply extended_concat _ hsink
      exact extended_startQueries (fun p hp => hsinks p (List.mem_append_left _ hp)) hbefore
    obtain ⟨hgauges, hlisteners⟩ := (Prepared.startQueries hbefore).release_error hq
    rw [hend]
    refine ⟨hgauges, hlisteners, hbroker.kept, nofun, ?_⟩
    rintro _ ⟨⟩
    exact ⟨before, q, after, handles, s₁, hqueries, hbefore, hq, fun _ => hbroker.contains⟩

/-- A broker with the topic that is copied, and a registry where the name of the second copy's state
is taken by something else. -/
def occupiedSurroundings : Surroundings where
  broker := { topics := .ofList [("a", .even 3 1 .empty)] }
  tracker := { registry := { gauges :=
    [(ListenerMetric.queryStatus ListenerMetric.group "r", .constant "taken")] } }

theorem start_relay_error :
    (({} : Engine).start relayDocument.encode occupiedSurroundings).1 = .error (.observe
      (.duplicateMetric (ListenerMetric.queryStatus ListenerMetric.group "r").toText)) := by
  rw [start_of_decode decode_relayDocument]
  decide +kernel

/-- The first copy is prepared, and released again when the second cannot be. -/
theorem unharmed_relay :
    (∃ e, (({} : Engine).start relayDocument.encode occupiedSurroundings).1 = .error e) ∧
      (({} : Engine).start relayDocument.encode occupiedSurroundings).2.tracker.registry.gauges =
        occupiedSurroundings.tracker.registry.gauges :=
  ⟨⟨_, start_relay_error⟩, (unharmed_of_start_error start_relay_error).1⟩

end Engine

end StandingQuery
