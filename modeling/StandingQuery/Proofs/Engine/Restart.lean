import StandingQuery.Proofs.Engine.Success
import StandingQuery.Proofs.Topic.Acceptance

/-!
# Starting a plan again

A start that succeeds tells that the source of each query and its sink are there afterwards, and
that the names of its listener were free, whatever the broker is like otherwise. This is all
that a query needs to be prepared once more, however many partitions the topics have by then.
So once its listeners are closed, a plan can be started again, and then no topic is to be made
or changed: the second start only asks questions.

* `Broker.Asked`: nothing has happened to a broker but questions.
* `Engine.handleOf_of_startQueries`: what the handles tell about the queries and the broker.
* `Engine.Restartable`: what a query needs of a broker that its sink is on already.
* `Engine.restart`: a plan that has been started can be started again.
-/

namespace StandingQuery

/-! ## Questions -/

/-- A call that changes no topic, whatever the answer is. -/
def BrokerCall.IsQuestion : BrokerCall → Prop
  | topicExists _ => True
  | describe _ => True
  | create _ _ _ _ => False
  | addConfig _ _ => False

/-- Between two brokers, nothing has happened but questions, which are counted and logged. -/
def Broker.Asked (b b' : Broker) : Prop :=
  ∃ calls : List BrokerCall, (∀ c ∈ calls, c.IsQuestion) ∧
    b' = { b with requests := b.requests + calls.length, log := b.log ++ calls }

namespace Broker

variable {b b' b'' : Broker}

theorem Asked.refl (b : Broker) : Asked b b := by
  refine ⟨[], nofun, ?_⟩
  rw [List.append_nil]
  rfl

theorem Asked.trans (h : Asked b b') (h' : Asked b' b'') : Asked b b'' := by
  obtain ⟨calls, hcalls, rfl⟩ := h
  obtain ⟨calls', hcalls', rfl⟩ := h'
  refine ⟨calls ++ calls', ?_, ?_⟩
  · intro c hc
    rcases List.mem_append.1 hc with hc | hc
    · exact hcalls c hc
    · exact hcalls' c hc
  · rw [List.length_append, List.append_assoc, Nat.add_assoc]

theorem Asked.topics (h : Asked b b') : b'.topics = b.topics := by
  obtain ⟨_, _, rfl⟩ := h
  rfl

theorem Asked.steady (h : Asked b b') (hb : b.Steady) : b'.Steady := by
  obtain ⟨calls, _, rfl⟩ := h
  exact ⟨fun n c hn => hb.noFaults n c (Nat.le_of_add_right_le hn), hb.truthful⟩

theorem Steady.asked_serve (hb : b.Steady) {c : BrokerCall} (hc : c.IsQuestion) :
    Asked b (b.serve c).2 := by
  refine ⟨[c], ?_, ?_⟩
  · intro c' hc'
    rwa [List.mem_singleton.1 hc']
  · rw [hb.serve_eq_act]
    cases c with
    | topicExists name => rfl
    | describe name => cases h : b.topics.find? name <;> simp [act, h]
    | create _ _ _ _ => exact hc.elim
    | addConfig _ _ => exact hc.elim

end Broker

/-- If a topic is there and no setting is to be applied again, its requirement is met, or not, by
questions. -/
theorem Reconciliation.asked_ofRequirement {b : Broker} (hb : b.Steady) {r : TopicRequirement}
    (hr : r.reapplied.isEmpty = true) {t : Topic} (ht : b.topics.find? r.topic = some t) :
    Broker.Asked b ((ofRequirement r).run b).2 := by
  have hexists : (b.serve (.topicExists r.topic)).1 = .ok true := by
    rw [hb.serve_topicExists]
    simp [OrderedMap.contains, ht]
  have hasked := hb.asked_serve (c := .topicExists r.topic) trivial
  have hasked' := (hasked.steady hb).asked_serve (c := .describe r.topic) trivial
  rw [ofRequirement, BrokerProgram.run, hexists]
  simp only [update, BrokerProgram.run]
  cases ((b.serve (.topicExists r.topic)).2.serve (.describe r.topic)).1 with
  | error e => exact hasked.trans hasked'
  | ok d =>
    simp only [reapply, hr, if_true]
    cases r.validate d <;> exact hasked.trans hasked'

/-! ## Topics that answers tell of -/

namespace Broker

variable {b : Broker} {name : String}

theorem contains_of_describe {d : TopicDescription}
    (h : (b.serve (.describe name)).1 = .ok d) : b.topics.contains name = true := by
  obtain ⟨⟨t, ht, -⟩, -⟩ := describe_ok h
  exact OrderedMap.contains_iff.2 ⟨t, ht⟩

end Broker

/-- Once a requirement is met, its topic is there. -/
theorem Reconciliation.contains_of_run_ok {b : Broker} {r : TopicRequirement}
    (h : ((ofRequirement r).run b).1 = .ok ()) :
    ((ofRequirement r).run b).2.topics.contains r.topic = true := by
  have hcalls : (ofRequirement r).Calls (BrokerCall.Tends r.topic fun _ => True) :=
    tends_ofRequirement fun _ hnot => absurd trivial hnot
  cases hexists : (b.serve (.topicExists r.topic)).1 with
  | error e =>
    rw [ofRequirement, BrokerProgram.run, hexists] at h
    cases h
  | ok there =>
    cases there with
    | true =>
      obtain ⟨t, ht⟩ := OrderedMap.contains_iff.1 (Broker.topicExists_ok hexists).1.symm
      obtain ⟨t', ht', _⟩ := (BrokerProgram.tended_run hcalls b).kept t ht
      exact OrderedMap.contains_iff.2 ⟨t', ht'⟩
    | false =>
      rw [ofRequirement, BrokerProgram.run, hexists] at h ⊢
      simp only [create, BrokerProgram.run] at h ⊢
      generalize (b.serve (.topicExists r.topic)).2 = b' at h ⊢
      cases hmade : (b'.serve (.create r.topic r.partitions r.replicas r.config)).1 with
      | error e => cases e <;> simp [hmade, BrokerProgram.run] at h
      | ok _ =>
        obtain ⟨-, -, htopics, -⟩ := Broker.create_ok hmade
        apply OrderedMap.contains_iff.2
        refine ⟨.even r.partitions r.replicas r.config, ?_⟩
        exact htopics ▸ (OrderedMap.find?_insert _ _ _ _).trans (if_pos rfl)

namespace Engine

variable {engine : Engine} {configs : ConfigSnapshot} {q : QueryPlan} {s s' : Surroundings}
  {b b' : Broker} {qs : List QueryPlan} {handles : List PersistentQuery} {p : PersistentQuery}

/-! ## What a handle tells -/

/-- What the handle of a query tells: the source and the sink are on the broker, the sink was
sized for some number of partitions, and the rest is determined by the query. -/
structure HandleOf (configs : ConfigSnapshot) (b : Broker) (q : QueryPlan) (p : PersistentQuery) :
    Prop where
  source : ∃ source, q.sourceTopic? = some source ∧ b.topics.contains source = true
  sized : ∃ partitions, TopicRequirement.forSink q configs partitions = .ok p.sink
  sink : b.topics.contains p.sink.topic = true
  topology : p.topology = .ofQuery q configs

theorem prepareSink_ok {r : TopicRequirement} (h : ((prepareSink q configs).run b).1 = .ok r) :
    (∃ source, q.sourceTopic? = some source ∧ b.topics.contains source = true) ∧
      (∃ partitions, TopicRequirement.forSink q configs partitions = .ok r) ∧
        ((prepareSink q configs).run b).2.topics.contains r.topic = true := by
  cases hsource : q.sourceTopic? with
  | none => simp [prepareSink, hsource, BrokerProgram.run] at h
  | some source =>
    simp only [prepareSink, hsource, BrokerProgram.run] at h ⊢
    cases hreply : (b.serve (.describe source)).1 with
    | error e => simp [hreply, BrokerProgram.run] at h
    | ok d =>
      refine ⟨⟨source, rfl, Broker.contains_of_describe hreply⟩, ?_⟩
      simp only [hreply] at h ⊢
      split at h
      · cases h
      rename_i hcount
      cases hsized : TopicRequirement.forSink q configs d.partitionCount with
      | error e => simp [hsized, BrokerProgram.run] at h
      | ok sink =>
        simp only [hsized, BrokerProgram.run_bind] at h
        simp only [if_neg hcount, BrokerProgram.run_bind]
        generalize (b.serve (.describe source)).2 = b' at h ⊢
        cases hmet : ((Reconciliation.ofRequirement sink).run b').1 with
        | error e => simp [hmet, BrokerProgram.run] at h
        | ok _ =>
          rw [hmet] at h
          cases h
          exact ⟨⟨_, hsized⟩, Reconciliation.contains_of_run_ok hmet⟩

theorem HandleOf.extended {names : String → Prop} (h : HandleOf configs b q p)
    (hstep : Broker.Extended names b b') : HandleOf configs b' q p := by
  have hkept : ∀ name, b.topics.contains name = true → b'.topics.contains name = true := by
    intro name hname
    obtain ⟨t, ht⟩ := OrderedMap.contains_iff.1 hname
    exact OrderedMap.contains_iff.2 ⟨t, hstep.kept name t ht⟩
  obtain ⟨source, hsource, hthere⟩ := h.source
  exact ⟨⟨source, hsource, hkept source hthere⟩, h.sized, hkept _ h.sink, h.topology⟩

theorem handleOf_of_startQuery (h : engine.startQuery configs q s = (.ok p, s')) :
    HandleOf configs s'.broker q p ∧
      ∃ sink, Broker.Extended (· = sink) s.broker s'.broker := by
  obtain ⟨hsink, hbroker, htopology, _, _⟩ := startQuery_ok h
  obtain ⟨⟨source, hsource, hthere⟩, ⟨n, hsized⟩, hmade⟩ := prepareSink_ok hsink
  obtain ⟨topic, _, htopic, _, _⟩ := forSink_eq_ok_iff.1 hsized
  have hstep : Broker.Extended _ s.broker (engine.startQuery configs q s).2.broker :=
    extended_startQuery htopic
  rw [h] at hstep
  refine ⟨⟨⟨source, hsource, ?_⟩, ⟨n, hsized⟩, ?_, htopology⟩, topic, hstep⟩
  · obtain ⟨t, ht⟩ := OrderedMap.contains_iff.1 hthere
    exact OrderedMap.contains_iff.2 ⟨t, hstep.kept source t ht⟩
  · rwa [hbroker]

/-- Each handle of a start that succeeds tells of its query. -/
theorem handleOf_of_startQueries (h : engine.startQueries configs [] qs s = (.ok handles, s')) :
    List.Forall₂ (HandleOf configs s'.broker) qs handles := by
  apply startQueries_preserves (I := fun qs handles s => List.Forall₂ (HandleOf configs s.broker)
    qs handles) List.Forall₂.nil _ h
  intro before q handles s p s' _ hbefore hq
  obtain ⟨hthis, sink, hstep⟩ := handleOf_of_startQuery hq
  apply List.rel_append (hbefore.imp fun _ _ hold => hold.extended hstep)
  exact .cons hthis .nil

/-! ## Queries that are started again -/

/-- What a query needs of a broker that its sink is on already. -/
structure Restartable (configs : ConfigSnapshot) (b : Broker) (q : QueryPlan) : Prop where
  source : ∃ source, q.sourceTopic? = some source ∧ b.topics.contains source = true
  sink : ∃ topic replicas t, q.sinkTopic? = some topic ∧
    TopicRequirement.sinkReplicas configs = .ok replicas ∧ b.topics.find? topic = some t ∧
      ∀ p ∈ t.partitions, replicas ≤ p.replicationFactor

theorem Restartable.asked (h : Restartable configs b q) (hasked : Broker.Asked b b') :
    Restartable configs b' q := by
  obtain ⟨hsource, hsink⟩ := h
  constructor <;> rwa [hasked.topics]

theorem HandleOf.restartable (h : HandleOf configs b q p)
    (hkept : ∀ name, b.topics.contains name = true → b'.topics.contains name = true)
    (hreplicas : ∀ t, b'.topics.find? p.sink.topic = some t →
      ∀ part ∈ t.partitions, p.sink.replicas ≤ part.replicationFactor) :
    Restartable configs b' q := by
  obtain ⟨source, hsource, hthere⟩ := h.source
  obtain ⟨n, hsized⟩ := h.sized
  obtain ⟨topic, replicas, htopic, hconfigured, hp⟩ := forSink_eq_ok_iff.1 hsized
  obtain ⟨t, ht⟩ := OrderedMap.contains_iff.1 (hkept p.sink.topic h.sink)
  have hfits := hreplicas t ht
  rw [hp] at ht hfits
  exact ⟨⟨source, hsource, hkept source hthere⟩, topic, replicas, t, htopic, hconfigured, ht, hfits⟩

/-- The sink of such a query is prepared by questions. -/
theorem Restartable.prepareSink (h : Restartable configs b q) (hb : b.Steady)
    (hcounts : Countable b) :
    (∃ r, ((prepareSink q configs).run b).1 = .ok r) ∧
      Broker.Asked b ((prepareSink q configs).run b).2 := by
  obtain ⟨⟨source, hsource, hthere⟩, topic, replicas, u, htopic, hconfigured, hu, hfits⟩ := h
  obtain ⟨t, ht⟩ := OrderedMap.contains_iff.1 hthere
  let r : TopicRequirement :=
    { topic, partitions := t.partitions.length, exactPartitions := false, replicas }
  have hsized : TopicRequirement.forSink q configs t.partitions.length = .ok r :=
    forSink_eq_ok_iff.2 ⟨topic, replicas, htopic, hconfigured, rfl⟩
  have hasked := hb.asked_serve (c := .describe source) trivial
  have hsteady := hasked.steady hb
  have hu' : (b.serve (.describe source)).2.topics.find? r.topic = some u := by
    rwa [hasked.topics]
  have hmet : ((Reconciliation.ofRequirement r).run (b.serve (.describe source)).2).1 = .ok () := by
    rw [Reconciliation.run_ofRequirement_present hsteady hu', TopicRequirement.validate_ok_iff]
    exact ⟨nofun, hfits⟩
  have hasked' := Reconciliation.asked_ofRequirement hsteady (r := r) rfl hu'
  rw [run_prepareSink configs hb hcounts hsource ht, hsized]
  simp only
  rw [hmet]
  exact ⟨⟨r, rfl⟩, hasked.trans hasked'⟩

/-- Each of several such queries is prepared by questions, if it is prepared. -/
theorem asked_startQueries (hb : s.broker.Steady) (hcounts : Countable s.broker)
    (hready : ∀ q ∈ qs, Restartable configs s.broker q)
    (h : engine.startQueries configs [] qs s = (.ok handles, s')) :
    Broker.Asked s.broker s'.broker := by
  apply startQueries_preserves (I := fun _ _ s' => Broker.Asked s.broker s'.broker)
    (.refl s.broker) _ h
  intro before q handles s₁ p s₂ hq hasked hthis
  have hcounts₁ : Countable s₁.broker := by rwa [Countable, hasked.topics]
  rw [(startQuery_ok hthis).2.1]
  exact hasked.trans
    (((hready q hq).asked hasked).prepareSink (hasked.steady hb) hcounts₁).2

/-- Such queries can all be prepared, if the names of their listeners are free. -/
theorem exists_startQueries_again (hb : s.broker.Steady) (hcounts : Countable s.broker)
    (hready : ∀ q ∈ qs, Restartable configs s.broker q)
    (hvalid : ∀ q ∈ qs, q.validate = .ok ()) (hids : (qs.map QueryPlan.id).Nodup)
    (hfree : ∀ q ∈ qs, (engine.listenerOf q).Free s.tracker.registry) :
    ∃ handles, (engine.startQueries configs [] qs s).1 = .ok handles := by
  cases hrun : (engine.startQueries configs [] qs s).1 with
  | ok handles => exact ⟨handles, rfl⟩
  | error e =>
    -- The run would have stopped at a query whose sink can be prepared and whose names are free.
    obtain ⟨before, q, after, handles, s₁, rfl, hbefore, hfailed, _⟩ := startQueries_error hrun
    have hq : q ∈ before ++ q :: after := by simp
    have hasked := asked_startQueries hb hcounts
      (fun r hr => hready r (List.mem_append_left _ hr)) hbefore
    have hcounts₁ : Countable s₁.broker := by rwa [Countable, hasked.topics]
    have hsink := (((hready q hq).asked hasked).prepareSink (hasked.steady hb) hcounts₁).1
    have hid : q.id ≠ "" := (QueryPlan.validate_eq_ok_iff.1 (hvalid q hq)).1
    have hnames : (engine.listenerOf q).Free s₁.tracker.registry := by
      apply (Prepared.startQueries hbefore).grown.free_iff.2
      refine ⟨hfree q hq, ?_⟩
      rintro l hl _ ⟨_, hsame⟩
      obtain ⟨r, hr, rfl⟩ := List.mem_map.1 hl
      rw [List.map_append, List.nodup_append] at hids
      exact hids.2.2 r.id (List.mem_map_of_mem hr) q.id (by simp) hsame
    obtain ⟨p, hp⟩ := startQuery_ok_iff.2 ⟨hsink, hid, hnames⟩
    rw [hp] at hfailed
    cases hfailed

/-! ## Listeners that are closed -/

namespace Prepared

variable {t₀ t : Tracker}

/-- The names that have been taken were free. -/
theorem free (h : Prepared engine configs t₀ qs handles t) (hq : q ∈ qs) :
    (engine.listenerOf q).Free t₀.registry :=
  Listener.free_iff_forall_gauges.2
    (h.grown.separate.absent (engine.listenerOf q) (List.mem_map_of_mem hq) rfl)

/-- Once the handles have been dropped, in any order, the older gauges are left. -/
theorem gauges_release (h : Prepared engine configs t₀ qs handles s.tracker)
    {dropped : List PersistentQuery} (hdropped : dropped.Perm handles) :
    (release dropped s).tracker.registry.gauges = t₀.registry.gauges := by
  have hindices : ∀ p, p ∈ dropped ↔ p ∈ handles := fun p => hdropped.mem_iff
  have hlistener : ∀ i, (∃ p ∈ handles, p.listener = i) ↔
      ∃ j < qs.length, t₀.listeners.length + j = i := by
    intro i
    rw [← List.mem_map, h.listeners, List.mem_map]
    simp only [List.mem_range]
  let indices := dropped.map fun p => p.listener - t₀.listeners.length
  have hmap : dropped.map PersistentQuery.listener =
      indices.map fun i => t₀.listeners.length + i := by
    rw [List.map_map]
    apply List.map_congr_left
    intro p hp
    obtain ⟨j, _, hj⟩ := (hlistener p.listener).1 ⟨p, (hindices p).1 hp, rfl⟩
    simp only [Function.comp_apply]
    omega
  have hclosed := h.grown.closeAll indices
  rw [← hmap] at hclosed
  apply hclosed.gauges_of_shut
  intro l hl
  apply Listener.closed_of_mem_shutAll _ hl
  intro i hi
  rw [List.length_map] at hi
  obtain ⟨p, hp, hpi⟩ := (hlistener _).2 ⟨i, hi, rfl⟩
  refine List.mem_map.2 ⟨p, (hindices p).2 hp, ?_⟩
  omega

end Prepared

/-! ## Starting again -/

/-- Two handles of one query differ at most in the number of partitions of the sink, and in the
listener. -/
theorem HandleOf.same {p' : PersistentQuery} (h : HandleOf configs b q p)
    (h' : HandleOf configs b' q p') :
    p'.topology = p.topology ∧ p'.sink = { p.sink with partitions := p'.sink.partitions } := by
  obtain ⟨n, hsized⟩ := h.sized
  obtain ⟨n', hsized'⟩ := h'.sized
  obtain ⟨topic, replicas, htopic, hreplicas, hsink⟩ := forSink_eq_ok_iff.1 hsized
  obtain ⟨topic', replicas', htopic', hreplicas', hsink'⟩ := forSink_eq_ok_iff.1 hsized'
  obtain rfl := Option.some.inj (htopic.symm.trans htopic')
  obtain rfl := Except.ok.inj (hreplicas.symm.trans hreplicas')
  exact ⟨h'.topology.trans h.topology.symm, by rw [hsink, hsink']⟩

theorem forall₂_same {handles' : List PersistentQuery}
    (h : List.Forall₂ (HandleOf configs b) qs handles)
    (h' : List.Forall₂ (HandleOf configs b') qs handles') :
    List.Forall₂ (fun p p' => p'.topology = p.topology ∧
      p'.sink = { p.sink with partitions := p'.sink.partitions }) handles handles' := by
  induction h generalizing handles' with
  | nil =>
    cases h'
    exact .nil
  | cons hthis _ ih =>
    cases h' with
    | cons hthis' hrest' => exact .cons (hthis.same hthis') (ih hrest')

/-- A plan that has been started can be started again once its listeners are closed, on any steady
broker that still has the topics and the replicas it had. Nothing is done to the broker then but
to ask questions, and the handles are the same up to the numbers of partitions. -/
theorem restart {plan : List UInt8} {dropped : List PersistentQuery}
    (hstart : (engine.start plan s).1 = .ok handles) (hdropped : dropped.Perm handles)
    (hb : b.Steady)
    (hcounts : ∀ name t, b.topics.find? name = some t → t.partitions.length < partitionLimit)
    (hkept : ∀ name, (engine.start plan s).2.broker.topics.contains name = true →
      b.topics.contains name = true)
    (hreplicas : ∀ p ∈ handles, ∀ t, b.topics.find? p.sink.topic = some t →
      ∀ part ∈ t.partitions, p.sink.replicas ≤ part.replicationFactor) :
    let closed := release dropped (engine.start plan s).2
    ∃ handles', (engine.start plan { closed with broker := b }).1 = .ok handles' ∧
      Broker.Asked b (engine.start plan { closed with broker := b }).2.broker ∧
      List.Forall₂ (fun p p' => p'.topology = p.topology ∧
        p'.sink = { p.sink with partitions := p'.sink.partitions }) handles handles' := by
  cases hdecode : PlanDocument.decode plan with
  | error fault =>
    rw [start_of_decode_error hdecode] at hstart
    cases hstart
  | ok d =>
    obtain ⟨hvalid, hids⟩ := PlanDocument.queries_of_decode hdecode
    simp only [start_of_decode hdecode] at hstart hkept ⊢
    generalize hs' : (engine.startQueries d.configs [] d.queries s).2 = s' at hkept ⊢
    have hrun : engine.startQueries d.configs [] d.queries s = (.ok handles, s') :=
      Prod.ext hstart hs'
    have htold := handleOf_of_startQueries hrun
    have hprepared := Prepared.startQueries hrun
    have hready : ∀ q ∈ d.queries, Restartable d.configs b q := by
      intro q hq
      obtain ⟨i, hi, rfl⟩ := List.getElem_of_mem hq
      have hi' : i < handles.length := htold.length_eq ▸ hi
      exact (htold.get hi hi').restartable hkept (hreplicas _ (List.getElem_mem hi'))
    have hfree : ∀ q ∈ d.queries,
        (engine.listenerOf q).Free (release dropped s').tracker.registry := by
      intro q hq
      rw [Listener.free_iff_forall_gauges, hprepared.gauges_release hdropped,
        ← Listener.free_iff_forall_gauges]
      exact hprepared.free hq
    let again : Surroundings := { release dropped s' with broker := b }
    obtain ⟨handles', hagain⟩ := exists_startQueries_again (s := again) hb hcounts hready hvalid
      hids hfree
    generalize hs'' : (engine.startQueries d.configs [] d.queries again).2 = s''
    have hrun' : engine.startQueries d.configs [] d.queries again = (.ok handles', s'') :=
      Prod.ext hagain hs''
    exact ⟨handles', hagain, asked_startQueries (s := again) hb hcounts hready hrun',
      forall₂_same htold (handleOf_of_startQueries hrun')⟩

/-- A broker on which the topics of the two copies have other numbers of partitions than at
first. -/
def repartitionedBroker : Broker where
  topics := .ofList [("a", .even 7 1 .empty), ("b", .even 3 2 .empty), ("c", .even 5 1 .empty)]

theorem find?_repartitionedBroker (name : String) :
    repartitionedBroker.topics.find? name =
      if name = "c" then some (.even 5 1 .empty) else if name = "b" then some (.even 3 2 .empty)
        else if name = "a" then some (.even 7 1 .empty) else none := by
  simp only [repartitionedBroker, OrderedMap.ofList, List.foldl_cons, List.foldl_nil,
    OrderedMap.find?_insert, OrderedMap.find?_empty]

/-- The copies are started again although the topic that is copied has more partitions, and the
topics that they write have other numbers of partitions than it. No topic is made or changed. -/
theorem restart_relay :
    ∃ handles s' handles' s'',
      ({} : Engine).start relayDocument.encode { broker := inputBroker } = (.ok handles, s') ∧
      ({} : Engine).start relayDocument.encode
        { release handles s' with broker := repartitionedBroker } = (.ok handles', s'') ∧
      handles.map PersistentQuery.sink = [
        { topic := "b", partitions := 3, exactPartitions := false, replicas := 1 },
        { topic := "c", partitions := 3, exactPartitions := false, replicas := 1 }] ∧
      handles'.map PersistentQuery.sink = [
        { topic := "b", partitions := 7, exactPartitions := false, replicas := 1 },
        { topic := "c", partitions := 3, exactPartitions := false, replicas := 1 }] ∧
      s''.broker.topics = repartitionedBroker.topics ∧
      List.Forall₂ (fun p p' => p'.topology = p.topology ∧
        p'.sink = { p.sink with partitions := p'.sink.partitions }) handles handles' := by
  -- Both starts, run on the spot.
  obtain ⟨handles, s', handles', s'', hrun, hrun', hsinks, hsinks', hmade⟩ :
      ∃ handles s' handles' s'',
        ({} : Engine).start relayDocument.encode { broker := inputBroker } = (.ok handles, s') ∧
        ({} : Engine).start relayDocument.encode
          { release handles s' with broker := repartitionedBroker } = (.ok handles', s'') ∧
        handles.map PersistentQuery.sink = [
          { topic := "b", partitions := 3, exactPartitions := false, replicas := 1 },
          { topic := "c", partitions := 3, exactPartitions := false, replicas := 1 }] ∧
        handles'.map PersistentQuery.sink = [
          { topic := "b", partitions := 7, exactPartitions := false, replicas := 1 },
          { topic := "c", partitions := 3, exactPartitions := false, replicas := 1 }] ∧
        s'.broker.topics =
          .ofList [("a", .even 3 1 .empty), ("b", .even 3 1 .empty), ("c", .even 3 1 .empty)] := by
    simp only [start_of_decode decode_relayDocument]
    exact ⟨_, _, _, _, rfl, rfl, rfl, rfl, rfl⟩
  have hcounts : ∀ name t, repartitionedBroker.topics.find? name = some t →
      t.partitions.length < partitionLimit := by
    intro name t ht
    rw [find?_repartitionedBroker] at ht
    split_ifs at ht <;> cases ht <;> decide
  have hkept : ∀ name, s'.broker.topics.contains name = true →
      repartitionedBroker.topics.contains name = true := by
    intro name hname
    rw [hmade] at hname
    simp only [OrderedMap.contains, OrderedMap.ofList, List.foldl_cons, List.foldl_nil,
      OrderedMap.find?_insert, OrderedMap.find?_empty] at hname
    rw [OrderedMap.contains, find?_repartitionedBroker]
    split_ifs at hname ⊢ <;> simp_all
  have hreplicas : ∀ p ∈ handles, ∀ t,
      repartitionedBroker.topics.find? p.sink.topic = some t →
        ∀ part ∈ t.partitions, p.sink.replicas ≤ part.replicationFactor := by
    intro p hp t ht
    have hsink := List.mem_map_of_mem (f := PersistentQuery.sink) hp
    rw [hsinks] at hsink
    rcases List.mem_pair.1 hsink with hsink | hsink <;> rw [hsink] at ht ⊢ <;>
      rw [find?_repartitionedBroker] at ht <;> cases ht <;> decide
  have hstart : (({} : Engine).start relayDocument.encode { broker := inputBroker }).1 =
      .ok handles := by rw [hrun]
  have hsteady : repartitionedBroker.Steady :=
    ⟨fun _ _ _ => rfl, by simp [Broker.Truthful, repartitionedBroker]⟩
  have hagain :=
    restart hstart (List.Perm.refl handles) hsteady hcounts (by rwa [hrun]) hreplicas
  simp only [hrun, hrun', Except.ok.injEq, exists_eq_left'] at hagain
  obtain ⟨hasked, hsame⟩ := hagain
  exact ⟨handles, s', handles', s'', hrun, hrun', hsinks, hsinks', hasked.topics, hsame⟩

end Engine

end StandingQuery
