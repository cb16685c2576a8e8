import StandingQuery.Proofs.Engine.Preparation
import StandingQuery.Proofs.Topic.Outcome

/-!
# Plans that can be started

Whether a plan can be started on a reliable broker is known before anything is done, although
the broker changes from query to query: what a query needs is either there from the beginning
or is the sink of an earlier query. `Ready` says what one query needs in terms of the first
broker, `Progress` says what the queries before it have made of that broker, and the two
together decide the next step.

* `Engine.prepareSink_ok_iff`: when the sink of one query can be prepared.
* `Engine.Progress.startQuery`: what a query that is prepared makes of the broker.
* `Engine.Reached.ready_of_startQuery`, `Engine.Reached.exists_startQuery`: the next query can be
  prepared exactly if it is ready.
* `Engine.start_ok_iff`: when a plan can be started, and what it has then done.
-/

namespace StandingQuery

namespace Engine

variable {engine : Engine} {configs : ConfigSnapshot} {q : QueryPlan} {s s₀ s' : Surroundings}
  {b b₀ : Broker} {qs : List QueryPlan} {handles : List PersistentQuery} {p : PersistentQuery}
  {replicas : Nat}

/-- All topics have few enough partitions for a query to take over. -/
def Countable (b : Broker) : Prop :=
  ∀ name t, b.topics.find? name = some t → t.partitions.length < partitionLimit

/-! ## The sink of one query -/

/-- If the source of a query is there, its sink is brought to meet its requirement. -/
theorem run_prepareSink (configs : ConfigSnapshot) (hb : b.Steady) (hcounts : Countable b)
    {source : String} {t : Topic} (hsource : q.sourceTopic? = some source)
    (ht : b.topics.find? source = some t) :
    let described := (b.serve (.describe source)).2
    (prepareSink q configs).run b =
      match TopicRequirement.forSink q configs t.partitions.length with
      | .error e => (.error (.topic e), described)
      | .ok r =>
        ((((Reconciliation.ofRequirement r).run described).1.map fun _ => r).mapError .topic,
          ((Reconciliation.ofRequirement r).run described).2) := by
  have hreply := hb.serve_describe_present ht
  have hlength : TopicDescription.partitionCount ⟨source, t.partitions⟩ = t.partitions.length := rfl
  have hcount : ¬ partitionLimit ≤ TopicDescription.partitionCount ⟨source, t.partitions⟩ :=
    Nat.not_le.2 (hcounts source t ht)
  simp only [prepareSink, hsource, BrokerProgram.run, hreply]
  rw [if_neg hcount, hlength]
  cases TopicRequirement.forSink q configs t.partitions.length with
  | error e => rfl
  | ok r =>
    simp only [BrokerProgram.run_bind]
    cases ((Reconciliation.ofRequirement r).run (b.serve (.describe source)).2).1 <;> rfl

theorem run_prepareSink_missing (hb : b.Steady) {source : String}
    (hsource : q.sourceTopic? = some source) (ht : b.topics.find? source = none) :
    ((prepareSink q configs).run b).1 = .error (.broker (.topicNotFound source)) := by
  have hreply := hb.serve_describe_missing ht
  simp only [prepareSink, hsource, BrokerProgram.run, hreply]

/-- The sink of a query can be prepared if the source is there, and the sink is missing or has
enough replicas. -/
theorem prepareSink_ok_iff (hb : b.Reliable) (hcounts : Countable b) {r : TopicRequirement} :
    ((prepareSink q configs).run b).1 = .ok r ↔
      ∃ source t, q.sourceTopic? = some source ∧ b.topics.find? source = some t ∧
        TopicRequirement.forSink q configs t.partitions.length = .ok r ∧
        ∀ u, b.topics.find? r.topic = some u →
          ∀ p ∈ u.partitions, r.replicas ≤ p.replicationFactor := by
  cases hsource : q.sourceTopic? with
  | none => simp [prepareSink, hsource, BrokerProgram.run]
  | some source =>
    cases ht : b.topics.find? source with
    | none => simp [run_prepareSink_missing hb.toSteady hsource ht, ht]
    | some t =>
      have hreliable := hb.serve (.describe source)
      have htopics := b.topics_serve_describe source
      rw [run_prepareSink configs hb.toSteady hcounts hsource ht]
      generalize (b.serve (.describe source)).2 = b' at hreliable htopics ⊢
      cases hsized : TopicRequirement.forSink q configs t.partitions.length with
      | error e => simp [ht, hsized]
      | ok sink =>
        -- The number of partitions of a sink is not pinned, so only the replicas are judged.
        have hpinned : sink.exactPartitions = false := by
          obtain ⟨_, _, _, _, rfl⟩ := forSink_eq_ok_iff.1 hsized
          rfl
        have hmet := Reconciliation.run_ofRequirement_ok_iff (r := sink) hreliable
        rw [htopics, hpinned] at hmet
        simp only [mapError_eq_ok, map_eq_ok]
        constructor
        · rintro ⟨⟨⟩, hok, rfl⟩
          exact ⟨source, t, rfl, ht, hsized, fun u hu => (hmet.1 hok u hu).2⟩
        · rintro ⟨_, t', ⟨⟩, ht', hsized', hfit⟩
          obtain rfl : t = t' := Option.some.inj (ht.symm.trans ht')
          obtain rfl : sink = r := Except.ok.inj (hsized.symm.trans hsized')
          refine ⟨(), hmet.2 ?_, rfl⟩
          intro u hu
          refine ⟨?_, hfit u hu⟩
          intro hpin
          cases hpin

theorem find?_prepareSink (hb : b.Reliable) (hcounts : Countable b) {r : TopicRequirement}
    (h : ((prepareSink q configs).run b).1 = .ok r) (hmissing : b.topics.find? r.topic = none) :
    ((prepareSink q configs).run b).2.topics.find? r.topic =
      some (.even r.partitions r.replicas r.config) := by
  obtain ⟨source, t, hsource, ht, hsized, _⟩ := (prepareSink_ok_iff hb hcounts).1 h
  have htopics := b.topics_serve_describe source
  have hmade := (Reconciliation.run_ofRequirement_missing (hb.serve (.describe source))
    (htopics ▸ hmissing)).2
  rw [run_prepareSink configs hb.toSteady hcounts hsource ht, hsized]
  simp only
  rw [hmade, OrderedMap.find?_insert, if_pos rfl]

/-- What a query that is prepared does to the broker: its sink has the size of its source if it
was missing, and nothing else happens to topics. -/
theorem startQuery_sized (hb : s.broker.Reliable) (hcounts : Countable s.broker)
    (hq : engine.startQuery configs q s = (.ok p, s')) :
    ∃ source t topic r, q.sourceTopic? = some source ∧ s.broker.topics.find? source = some t ∧
      q.sinkTopic? = some topic ∧ TopicRequirement.sinkReplicas configs = .ok r ∧
      Broker.Extended (· = topic) s.broker s'.broker ∧
      (s.broker.topics.find? topic = none →
        s'.broker.topics.find? topic = some (.even t.partitions.length r .empty)) := by
  obtain ⟨hsink, hbroker, _⟩ := startQuery_ok hq
  obtain ⟨source, t, hsource, ht, hsized, _⟩ := (prepareSink_ok_iff hb hcounts).1 hsink
  obtain ⟨topic, r, htopic, hr, hrequired⟩ := forSink_eq_ok_iff.1 hsized
  have hstep : Broker.Extended (· = topic) s.broker (engine.startQuery configs q s).2.broker :=
    extended_startQuery htopic
  rw [hq] at hstep
  refine ⟨source, t, topic, r, hsource, ht, htopic, hr, hstep, ?_⟩
  intro hmissing
  have hmade := find?_prepareSink hb hcounts hsink
  rw [hrequired] at hmade
  rw [hbroker]
  exact hmade hmissing

/-! ## One query after others -/

/-- What a query needs of the first surroundings, if some queries are prepared before it. -/
structure Ready (engine : Engine) (configs : ConfigSnapshot) (replicas : Nat) (s₀ : Surroundings)
    (earlier : List QueryPlan) (q : QueryPlan) : Prop where
  configured : TopicRequirement.sinkReplicas configs = .ok replicas
  source : ∃ source, q.sourceTopic? = some source ∧
    (s₀.broker.topics.contains source = true ∨ SinkOf earlier source)
  sink : ∀ sink t, q.sinkTopic? = some sink → s₀.broker.topics.find? sink = some t →
    ∀ p ∈ t.partitions, replicas ≤ p.replicationFactor
  names : (engine.listenerOf q).Free s₀.tracker.registry

/-- What some queries that were prepared have made of the first broker. A sink that was missing is
sized by the source of the first query that writes it. -/
structure Progress (replicas : Nat) (b₀ : Broker) (qs : List QueryPlan) (b : Broker) : Prop where
  reliable : b.Reliable
  counts : Countable b
  extended : Broker.Extended (SinkOf qs) b₀ b
  made : ∀ sink, b₀.topics.find? sink = none → SinkOf qs sink →
    ∃ earlier q later source t, qs = earlier ++ q :: later ∧ q.sinkTopic? = some sink ∧
      ¬ SinkOf earlier sink ∧ q.sourceTopic? = some source ∧ b.topics.find? source = some t ∧
      b.topics.find? sink = some (.even t.partitions.length replicas .empty)

theorem Countable.extended {b' : Broker} {topic : String} (h : Countable b)
    (hstep : Broker.Extended (· = topic) b b')
    (hmade : b.topics.find? topic = none → ∃ source t, b.topics.find? source = some t ∧
      b'.topics.find? topic = some (.even t.partitions.length replicas .empty)) :
    Countable b' := by
  intro name u hu
  by_cases hold : b.topics.find? name = none
  · obtain rfl : name = topic := by
      by_contra hne
      rw [hstep.others name hne, hold] at hu
      cases hu
    obtain ⟨source, t, ht, hfound⟩ := hmade hold
    obtain rfl := Option.some.inj (hfound.symm.trans hu)
    rw [Topic.length_even]
    exact h source t ht
  · obtain ⟨v, hv⟩ := Option.ne_none_iff_exists'.1 hold
    obtain rfl := Option.some.inj ((hstep.kept name v hv).symm.trans hu)
    exact h name v hv

namespace Progress

theorem nil (replicas : Nat) (hb : b.Reliable) (hcounts : Countable b) :
    Progress replicas b [] b := by
  refine ⟨hb, hcounts, .refl _ _, ?_⟩
  rintro sink _ ⟨q, hq, _⟩
  cases hq

theorem contains (h : Progress replicas b₀ qs b) {name : String}
    (hname : b₀.topics.contains name = true ∨ SinkOf qs name) :
    ∃ t, b.topics.find? name = some t := by
  cases hold : b₀.topics.find? name with
  | some t => exact ⟨t, h.extended.kept name t hold⟩
  | none =>
    have hsink : SinkOf qs name := by
      simpa [OrderedMap.contains, hold] using hname
    obtain ⟨_, _, _, _, _, _, _, _, _, _, hmade⟩ := h.made name hold hsink
    exact ⟨_, hmade⟩

/-- A topic that is there was there before, or has the required number of replicas. -/
theorem fits (h : Progress replicas b₀ qs b) {name : String} {t : Topic}
    (hold : ∀ t, b₀.topics.find? name = some t →
      ∀ p ∈ t.partitions, replicas ≤ p.replicationFactor)
    (ht : b.topics.find? name = some t) : ∀ p ∈ t.partitions, replicas ≤ p.replicationFactor := by
  cases hname : b₀.topics.find? name with
  | some t₀ =>
    obtain rfl : t₀ = t := Option.some.inj ((h.extended.kept name t₀ hname).symm.trans ht)
    exact hold t₀ hname
  | none =>
    have hsink : SinkOf qs name := by
      by_contra hnot
      rw [h.extended.others name hnot, hname] at ht
      cases ht
    obtain ⟨_, _, _, _, u, _, _, _, _, _, hmade⟩ := h.made name hname hsink
    obtain rfl := Option.some.inj (hmade.symm.trans ht)
    intro p hp
    exact Nat.le_of_eq (Topic.replicationFactor_even hp).symm

/-- A query that is prepared makes its sink if it is missing, and nothing else. -/
theorem startQuery (h : Progress replicas b₀ qs s.broker)
    (hreplicas : ∀ r, TopicRequirement.sinkReplicas configs = .ok r → r = replicas)
    (hq : engine.startQuery configs q s = (.ok p, s')) :
    Progress replicas b₀ (qs ++ [q]) s'.broker := by
  obtain ⟨source, t, topic, r, hsource, ht, htopic, hr, hstep, hmade⟩ :=
    startQuery_sized h.reliable h.counts hq
  obtain rfl := hreplicas r hr
  constructor
  · rw [(startQuery_ok hq).2.1]
    exact h.reliable.run _
  · exact h.counts.extended hstep fun hmissing => ⟨source, t, ht, hmade hmissing⟩
  · have hextended : Broker.Extended (SinkOf (qs ++ [q])) b₀
        (engine.startQuery configs q s).2.broker := extended_concat h.extended htopic
    rwa [hq] at hextended
  · intro sink hmissing hwritten
    -- If an earlier query writes the sink too, the sink and its size are settled already.
    by_cases hearlier : SinkOf qs sink
    · obtain ⟨earlier, q', later, source', u, hqs, hsink', hfirst, hsource', hu, hfound⟩ :=
        h.made sink hmissing hearlier
      refine ⟨earlier, q', later ++ [q], source', u, ?_, hsink', hfirst, hsource',
        hstep.kept _ _ hu, hstep.kept _ _ hfound⟩
      rw [hqs, List.append_assoc, List.cons_append]
    · have hthis : q.sinkTopic? = some sink := by
        obtain ⟨q', hq', hsink'⟩ := hwritten
        rcases List.mem_append.1 hq' with hq' | hq'
        · exact absurd ⟨q', hq', hsink'⟩ hearlier
        · rwa [List.mem_singleton.1 hq'] at hsink'
      obtain rfl : topic = sink := Option.some.inj (htopic.symm.trans hthis)
      refine ⟨qs, q, [], source, t, rfl, hthis, hearlier, hsource, hstep.kept _ _ ht, ?_⟩
      apply hmade
      rw [h.extended.others topic hearlier, hmissing]

end Progress

/-! ## All queries -/

theorem forall_split_concat {α : Type} {P : List α → α → Prop} {xs : List α} {x : α}
    (h : ∀ before y after, xs = before ++ y :: after → P before y) (hx : P xs x) :
    ∀ before y after, xs ++ [x] = before ++ y :: after → P before y := by
  intro before y after hsplit
  rcases after.eq_nil_or_concat with rfl | ⟨after, z, rfl⟩
  · obtain ⟨rfl, rfl⟩ := List.append_singleton_inj.1 hsplit
    exact hx
  · rw [List.concat_eq_append, ← List.cons_append, ← List.append_assoc] at hsplit
    obtain ⟨rfl, _⟩ := List.append_singleton_inj.1 hsplit
    exact h before y after rfl

/-- From `s₀` on, some queries have been prepared, each of which was ready when its turn came. -/
structure Reached (engine : Engine) (configs : ConfigSnapshot) (replicas : Nat) (s₀ : Surroundings)
    (qs : List QueryPlan) (handles : List PersistentQuery) (s : Surroundings) : Prop where
  progress : Progress replicas s₀.broker qs s.broker
  prepared : Prepared engine configs s₀.tracker qs handles s.tracker
  ready : ∀ earlier q later, qs = earlier ++ q :: later → Ready engine configs replicas s₀ earlier q

namespace Reached

theorem ready_of_startQuery (h : Reached engine configs replicas s₀ qs handles s)
    (hreplicas : ∀ r, TopicRequirement.sinkReplicas configs = .ok r → r = replicas)
    (hq : (engine.startQuery configs q s).1 = .ok p) :
    Ready engine configs replicas s₀ qs q := by
  obtain ⟨⟨required, hsink⟩, _, hfree⟩ := startQuery_ok_iff.1 ⟨p, hq⟩
  obtain ⟨source, t, hsource, ht, hsized, hfits⟩ :=
    (prepareSink_ok_iff h.progress.reliable h.progress.counts).1 hsink
  obtain ⟨topic, r, htopic, hr, rfl⟩ := forSink_eq_ok_iff.1 hsized
  obtain rfl := hreplicas r hr
  refine ⟨hr, ⟨source, hsource, ?_⟩, ?_, (h.prepared.grown.free_iff.1 hfree).1⟩
  · apply h.progress.extended.contains
    simp [OrderedMap.contains, ht]
  · intro sink u hsink hu
    obtain rfl : topic = sink := Option.some.inj (htopic.symm.trans hsink)
    exact hfits u (h.progress.extended.kept topic u hu)

theorem exists_startQuery (h : Reached engine configs replicas s₀ qs handles s)
    (hready : Ready engine configs replicas s₀ qs q) (hvalid : q.validate = .ok ())
    (hids : ∀ r ∈ qs, r.id ≠ q.id) : ∃ p, (engine.startQuery configs q s).1 = .ok p := by
  obtain ⟨source, hsource, hthere⟩ := hready.source
  obtain ⟨t, ht⟩ := h.progress.contains hthere
  obtain ⟨sink, hsink⟩ := q.exists_sinkTopic hvalid
  have hsized : TopicRequirement.forSink q configs t.partitions.length = .ok {
      topic := sink, partitions := t.partitions.length, exactPartitions := false, replicas } :=
    forSink_eq_ok_iff.2 ⟨sink, replicas, hsink, hready.configured, rfl⟩
  have hfits : ∀ u, s.broker.topics.find? sink = some u →
      ∀ p ∈ u.partitions, replicas ≤ p.replicationFactor :=
    fun u hu => h.progress.fits (fun v hv => hready.sink sink v hsink hv) hu
  have hprepared := (prepareSink_ok_iff h.progress.reliable h.progress.counts).2
    ⟨source, t, hsource, ht, hsized, hfits⟩
  have hid : q.id ≠ "" := (QueryPlan.validate_eq_ok_iff.1 hvalid).1
  have hfree : (engine.listenerOf q).Free s.tracker.registry := by
    apply h.prepared.grown.free_iff.2
    refine ⟨hready.names, ?_⟩
    rintro l hl _ ⟨_, hsame⟩
    obtain ⟨r, hr, rfl⟩ := List.mem_map.1 hl
    exact hids r hr hsame
  exact startQuery_ok_iff.2 ⟨⟨_, hprepared⟩, hid, hfree⟩

theorem startQuery (h : Reached engine configs replicas s₀ qs handles s)
    (hreplicas : ∀ r, TopicRequirement.sinkReplicas configs = .ok r → r = replicas)
    (hq : engine.startQuery configs q s = (.ok p, s')) :
    Reached engine configs replicas s₀ (qs ++ [q]) (handles ++ [p]) s' :=
  ⟨h.progress.startQuery hreplicas hq, h.prepared.startQuery hq,
    forall_split_concat h.ready (h.ready_of_startQuery hreplicas (congrArg Prod.fst hq))⟩

theorem startQueries (hb : s.broker.Reliable) (hcounts : Countable s.broker)
    (hreplicas : ∀ r, TopicRequirement.sinkReplicas configs = .ok r → r = replicas)
    (h : engine.startQueries configs [] qs s = (.ok handles, s')) :
    Reached engine configs replicas s qs handles s' := by
  apply startQueries_preserves (I := Reached engine configs replicas s) _ _ h
  · refine ⟨.nil replicas hb hcounts, .nil engine configs s.tracker, ?_⟩
    intro earlier q later hsplit
    exact absurd hsplit (by simp)
  · intro before q handles s₁ p s₂ _ hbefore hq
    exact hbefore.startQuery hreplicas hq

end Reached

/-- Valid queries can all be prepared if they are ready one after another. -/
theorem exists_startQueries (hb : s.broker.Reliable) (hcounts : Countable s.broker)
    (hvalid : ∀ q ∈ qs, q.validate = .ok ()) (hids : (qs.map QueryPlan.id).Nodup)
    (hready : ∀ earlier q later, qs = earlier ++ q :: later →
      Ready engine configs replicas s earlier q) :
    ∃ handles, (engine.startQueries configs [] qs s).1 = .ok handles := by
  cases hrun : (engine.startQueries configs [] qs s).1 with
  | ok handles => exact ⟨handles, rfl⟩
  | error e =>
    -- The run would have stopped at a query that was ready.
    obtain ⟨before, q, after, handles, s₁, hqs, hbefore, hfailed, _⟩ := startQueries_error hrun
    have hthis := hready before q after hqs
    have hreplicas : ∀ r, TopicRequirement.sinkReplicas configs = .ok r → r = replicas :=
      fun r hr => Except.ok.inj (hr.symm.trans hthis.configured)
    have hreached := Reached.startQueries hb hcounts hreplicas hbefore
    have hfresh : ∀ r ∈ before, r.id ≠ q.id := by
      intro r hr
      rw [hqs, List.map_append, List.nodup_append] at hids
      exact hids.2.2 r.id (List.mem_map_of_mem hr) q.id (by simp)
    have hqvalid : q.validate = .ok () := hvalid q (by simp [hqs])
    obtain ⟨p, hp⟩ := hreached.exists_startQuery hthis hqvalid hfresh
    rw [hp] at hfailed
    cases hfailed

/-! ## Starting a plan -/

/-- What the queries of a document need of the surroundings: the number of replicas is configured,
each source is there or is the sink of an earlier query, sinks that are there have enough
replicas, and the names of the listeners are free. -/
structure Startable (engine : Engine) (d : PlanDocument) (replicas : Nat) (s : Surroundings) :
    Prop where
  configured : d.queries ≠ [] →
    d.configs.value? ConfigKey.sinkReplicas = none ∧ replicas = 1 ∨
      ∃ text, d.configs.value? ConfigKey.sinkReplicas = some text ∧
        ConfigValue.readCount text = .ok replicas ∧ 1 ≤ replicas
  sources : ∀ earlier q later, d.queries = earlier ++ q :: later →
    ∃ source, q.sourceTopic? = some source ∧
      (s.broker.topics.contains source = true ∨ ∃ p ∈ earlier, p.sinkTopic? = some source)
  sinks : ∀ q ∈ d.queries, ∀ sink t, q.sinkTopic? = some sink →
    s.broker.topics.find? sink = some t → ∀ p ∈ t.partitions, replicas ≤ p.replicationFactor
  names : ∀ q ∈ d.queries,
    s.tracker.registry.contains (engine.listenerOf q).queryStatus = false ∧
      s.tracker.registry.contains (engine.listenerOf q).errorStatus = false

/-- What has been done when the queries of a document have been started: there is a handle for
each query, missing sinks have been made, of the size of the source of the first query that
writes them, and the two gauges of each query have been registered. -/
structure Started (engine : Engine) (d : PlanDocument) (replicas : Nat) (s : Surroundings)
    (handles : List PersistentQuery) (s' : Surroundings) : Prop where
  topologies : handles.map PersistentQuery.topology =
    d.queries.map fun q => .ofQuery q d.configs
  queryIds : (handles.map fun p => p.topology.queryId).Nodup
  applicationIds : (handles.map fun p => p.topology.applicationId).Nodup
  made : ∀ sink, s.broker.topics.find? sink = none →
    (∃ q ∈ d.queries, q.sinkTopic? = some sink) →
    ∃ earlier q later source t, d.queries = earlier ++ q :: later ∧ q.sinkTopic? = some sink ∧
      (¬ ∃ p ∈ earlier, p.sinkTopic? = some sink) ∧ q.sourceTopic? = some source ∧
      s'.broker.topics.find? source = some t ∧
      s'.broker.topics.find? sink = some (.even t.partitions.length replicas .empty)
  kept : ∀ name t, s.broker.topics.find? name = some t → s'.broker.topics.find? name = some t
  others : ∀ name, (¬ ∃ q ∈ d.queries, q.sinkTopic? = some name) →
    s'.broker.topics.find? name = s.broker.topics.find? name
  gauges : s'.tracker.registry.gauges = s.tracker.registry.gauges ++
    handles.flatMap fun p =>
      let group := engine.groupPrefix ++ ListenerMetric.group
      [(ListenerMetric.queryStatus group p.topology.queryId, .stateOf p.listener),
        (ListenerMetric.errorStatus group p.topology.queryId, .errorOf p.listener)]
  listeners : s'.tracker.listeners = s.tracker.listeners ++ d.queries.map engine.listenerOf

theorem startable_iff {d : PlanDocument} :
    Startable engine d replicas s ↔ ∀ earlier q later, d.queries = earlier ++ q :: later →
      Ready engine d.configs replicas s earlier q := by
  constructor
  · intro h earlier q later hsplit
    have hq : q ∈ d.queries := by simp [hsplit]
    exact ⟨TopicRequirement.sinkReplicas_eq_ok_iff.2 (h.configured (List.ne_nil_of_mem hq)),
      h.sources earlier q later hsplit, h.sinks q hq, Listener.free_iff.2 (h.names q hq)⟩
  · intro h
    have hmem : ∀ q ∈ d.queries, ∃ earlier, Ready engine d.configs replicas s earlier q := by
      intro q hq
      obtain ⟨earlier, later, hsplit⟩ := List.append_of_mem hq
      exact ⟨earlier, h earlier q later hsplit⟩
    constructor
    · intro hne
      obtain ⟨_, hready⟩ := hmem _ (List.head_mem hne)
      exact TopicRequirement.sinkReplicas_eq_ok_iff.1 hready.configured
    · intro earlier q later hsplit
      exact (h earlier q later hsplit).source
    · intro q hq
      obtain ⟨_, hready⟩ := hmem q hq
      exact hready.sink
    · intro q hq
      obtain ⟨_, hready⟩ := hmem q hq
      exact Listener.free_iff.1 hready.names

theorem Prepared.gauges {t₀ t : Tracker} (h : Prepared engine configs t₀ qs handles t) :
    t.registry.gauges = t₀.registry.gauges ++ handles.flatMap fun p =>
      (Listener.fresh engine.groupPrefix p.topology.queryId).gauges p.listener := by
  rw [h.grown.gauges, Listener.gaugesFrom, List.flatMap_def]
  congr 2
  apply List.ext_getElem?
  intro i
  have htopology := congrArg (fun l => l[i]?) h.topologies
  have hlistener := congrArg (fun l => l[i]?) h.listeners
  simp only [List.getElem?_map] at htopology hlistener
  simp only [List.getElem?_mapIdx, List.getElem?_map]
  cases hq : qs[i]? with
  | none =>
    rw [hq] at htopology
    rw [Option.map_eq_none_iff.1 htopology]
    rfl
  | some q =>
    rw [hq] at htopology
    obtain ⟨p, hp, htopology⟩ := Option.map_eq_some_iff.1 htopology
    have hi : (List.range qs.length)[i]? = some i :=
      List.getElem?_range (List.getElem?_eq_some_iff.1 hq).1
    rw [hp, hi] at hlistener
    rw [hp]
    simp only [Option.map_some, Option.some.injEq] at hlistener ⊢
    rw [htopology, hlistener]
    rfl

theorem applicationId_injective (configs : ConfigSnapshot) :
    Function.Injective configs.applicationId := by
  intro id id' h
  exact (String.append_right_inj _).1 h

theorem Reached.started {d : PlanDocument}
    (h : Reached engine d.configs replicas s d.queries handles s')
    (hids : (d.queries.map QueryPlan.id).Nodup) : Started engine d replicas s handles s' := by
  have hqueryIds : (handles.map fun p => p.topology.queryId) = d.queries.map QueryPlan.id := by
    have htopologies := congrArg (List.map PlanTopology.queryId) h.prepared.topologies
    rwa [List.map_map, List.map_map] at htopologies
  have happlicationIds : (handles.map fun p => p.topology.applicationId) =
      (d.queries.map QueryPlan.id).map d.configs.applicationId := by
    have htopologies := congrArg (List.map PlanTopology.applicationId) h.prepared.topologies
    rw [List.map_map, List.map_map] at htopologies
    rwa [List.map_map]
  constructor
  · exact h.prepared.topologies
  · rwa [hqueryIds]
  · rw [happlicationIds]
    exact hids.map (applicationId_injective d.configs)
  · exact h.progress.made
  · exact h.progress.extended.kept
  · exact h.progress.extended.others
  · exact h.prepared.gauges
  · exact h.prepared.grown.listeners

/-- A plan that has been started could be, and what it has done. -/
theorem started_of_start (hb : s.broker.Reliable) (hcounts : Countable s.broker)
    {plan : List UInt8} (h : (engine.start plan s).1 = .ok handles) :
    ∃ d replicas, PlanDocument.decode plan = .ok d ∧ Startable engine d replicas s ∧
      Started engine d replicas s handles (engine.start plan s).2 := by
  cases hdecode : PlanDocument.decode plan with
  | error fault =>
    rw [start_of_decode_error hdecode] at h
    cases h
  | ok d =>
    rw [start_of_decode hdecode] at h ⊢
    -- Without queries, the number of replicas may be misconfigured and is not used.
    obtain ⟨replicas, hreplicas⟩ : ∃ replicas, ∀ r,
        TopicRequirement.sinkReplicas d.configs = .ok r → r = replicas := by
      cases TopicRequirement.sinkReplicas d.configs with
      | error e => exact ⟨0, nofun⟩
      | ok r => exact ⟨r, fun r' hr' => (Except.ok.inj hr').symm⟩
    have hreached := Reached.startQueries hb hcounts hreplicas (Prod.ext h rfl)
    exact ⟨d, replicas, rfl, startable_iff.2 hreached.ready,
      hreached.started (PlanDocument.queries_of_decode hdecode).2⟩

/-- On a reliable broker without topics of too many partitions, a plan can be started if it can be
read and its queries find what they need, and then this is what has been done. -/
theorem start_ok_iff {engine : Engine} {plan : List UInt8} {s : Surroundings}
    (hb : s.broker.Reliable)
    (hcounts : ∀ name t, s.broker.topics.find? name = some t →
      t.partitions.length < partitionLimit) :
    ((∃ handles, (engine.start plan s).1 = .ok handles) ↔
      ∃ d replicas, PlanDocument.decode plan = .ok d ∧ engine.Startable d replicas s) ∧
    ∀ handles, (engine.start plan s).1 = .ok handles → ∃ d replicas,
      PlanDocument.decode plan = .ok d ∧ engine.Startable d replicas s ∧
        engine.Started d replicas s handles (engine.start plan s).2 := by
  refine ⟨⟨?_, ?_⟩, fun handles h => started_of_start hb hcounts h⟩
  · rintro ⟨handles, h⟩
    obtain ⟨d, replicas, hdecode, hstartable, _⟩ := started_of_start hb hcounts h
    exact ⟨d, replicas, hdecode, hstartable⟩
  · rintro ⟨d, replicas, hdecode, hstartable⟩
    obtain ⟨hvalid, hids⟩ := PlanDocument.queries_of_decode hdecode
    rw [start_of_decode hdecode]
    exact exists_startQueries hb hcounts hvalid hids (startable_iff.1 hstartable)

/-- A broker with the topic that is copied. -/
def inputBroker : Broker where
  topics := .ofList [("a", .even 3 1 .empty)]

theorem inputBroker_reliable : inputBroker.Reliable :=
  ⟨⟨fun _ _ _ => rfl, fun _ _ => nofun⟩, rfl⟩

theorem inputBroker_countable (name : String) (t : Topic)
    (h : inputBroker.topics.find? name = some t) : t.partitions.length < partitionLimit := by
  have hlookup : inputBroker.topics.find? name =
      if name = "a" then some (Topic.even 3 1 .empty) else none :=
    OrderedMap.find?_insert OrderedMap.empty "a" name (Topic.even 3 1 .empty)
  rw [hlookup] at h
  split at h
  · cases h
    decide
  · cases h

theorem start_relay :
    ∃ handles s',
      ({} : Engine).start relayDocument.encode { broker := inputBroker } = (.ok handles, s') ∧
      handles.map PersistentQuery.sink = [
        { topic := "b", partitions := 3, exactPartitions := false, replicas := 1 },
        { topic := "c", partitions := 3, exactPartitions := false, replicas := 1 }] ∧
      s'.broker.topics =
        .ofList [("a", .even 3 1 .empty), ("b", .even 3 1 .empty), ("c", .even 3 1 .empty)] := by
  rw [start_of_decode decode_relayDocument]
  exact ⟨_, _, rfl, rfl, rfl⟩

/-- Both copies are started, and both of their topics are made; the second finds its source where
the first has its sink. -/
theorem started_relay :
    ∃ handles s' d replicas,
      ({} : Engine).start relayDocument.encode { broker := inputBroker } = (.ok handles, s') ∧
      handles.map PersistentQuery.sink = [
        { topic := "b", partitions := 3, exactPartitions := false, replicas := 1 },
        { topic := "c", partitions := 3, exactPartitions := false, replicas := 1 }] ∧
      s'.broker.topics =
        .ofList [("a", .even 3 1 .empty), ("b", .even 3 1 .empty), ("c", .even 3 1 .empty)] ∧
      Started {} d replicas { broker := inputBroker } handles s' := by
  obtain ⟨handles, s', hrun, hsinks, hmade⟩ := start_relay
  obtain ⟨d, replicas, _, _, hstarted⟩ :=
    (start_ok_iff inputBroker_reliable inputBroker_countable).2 handles (congrArg Prod.fst hrun)
  rw [hrun] at hstarted
  exact ⟨handles, s', d, replicas, hrun, hsinks, hmade, hstarted⟩

end Engine

end StandingQuery
