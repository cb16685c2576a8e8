import StandingQuery.Engine.PersistentQuery
import StandingQuery.Proofs.Lifecycle.Gauges
import StandingQuery.Proofs.Plan.ChangelogTopics
import StandingQuery.Proofs.Plan.Persistence
import StandingQuery.Proofs.Topic.Upkeep

/-!
# Preparing queries one after another

A query is prepared in two steps: its sink is brought to meet its requirement, and a listener
is made. The first step does at most one thing to the broker, to make the sink, and the second
does nothing to the registry if it fails. What holds before the queries and is kept by each
query that is prepared holds after all of them, and a run that fails has prepared the queries
before one that it could not prepare.

* `Engine.startQuery_ok_iff`: when a query can be prepared.
* `Engine.startQueries_preserves`: from each query that is prepared to all.
* `Engine.startQueries_error`: what a run that fails has done.
* `Engine.Prepared`: what has become of a tracker, and what the handles are.
* `Broker.Extended`: what has become of a broker.
-/

namespace StandingQuery

/-! ## Queries of valid documents -/

theorem QueryPlan.exists_sinkTopic {q : QueryPlan} (h : q.validate = .ok ()) :
    ∃ topic, q.sinkTopic? = some topic := by
  obtain ⟨_, _, hsink, _⟩ := validate_eq_ok_iff.1 h
  rw [PlanNode.isSink_eq] at hsink
  obtain ⟨target, htarget⟩ := Option.isSome_iff_exists.1 hsink
  exact ⟨target.topic, by rw [sinkTopic?, htarget, Option.map_some]⟩

/-- The queries of a document that has been read are valid and have different ids. -/
theorem PlanDocument.queries_of_decode {text : List UInt8} {d : PlanDocument}
    (h : decode text = .ok d) :
    (∀ q ∈ d.queries, q.validate = .ok ()) ∧ (d.queries.map QueryPlan.id).Nodup := by
  obtain ⟨_, _, _, _, hvalid⟩ := decode_eq_ok_iff.1 h
  obtain ⟨hqueries, hnodup⟩ := queries_of_checkEntries hvalid
  exact ⟨fun q hq => (hqueries q hq).1, hnodup⟩

/-! ## What happens to the broker -/

/-- The topics that some queries write. -/
def SinkOf (qs : List QueryPlan) (name : String) : Prop := ∃ q ∈ qs, q.sinkTopic? = some name

/-- Between two brokers, nothing has happened to topics except that some were made, under
certain names. -/
structure Broker.Extended (names : String → Prop) (b b' : Broker) : Prop where
  kept : ∀ name t, b.topics.find? name = some t → b'.topics.find? name = some t
  others : ∀ name, ¬ names name → b'.topics.find? name = b.topics.find? name

namespace Broker.Extended

variable {names names' : String → Prop} {b b' b'' : Broker}

theorem refl (names : String → Prop) (b : Broker) : Extended names b b :=
  ⟨fun _ _ h => h, fun _ _ => rfl⟩

theorem trans (h : Extended names b b') (h' : Extended names' b' b'') :
    Extended (fun name => names name ∨ names' name) b b'' := by
  constructor
  · intro name t ht
    exact h'.kept name t (h.kept name t ht)
  · intro name hname
    rw [not_or] at hname
    rw [h'.others name hname.2, h.others name hname.1]

theorem mono (h : Extended names b b') (hle : ∀ name, names name → names' name) :
    Extended names' b b' :=
  ⟨h.kept, fun name hname => h.others name fun hin => hname (hle name hin)⟩

/-- A topic that is taken care of, without any setting that may be set, is at most made. -/
theorem of_tended {topic : String} (h : Tended topic (fun _ => False) b b') :
    Extended (· = topic) b b' := by
  refine ⟨?_, h.others⟩
  intro name t ht
  by_cases hname : name = topic
  · subst hname
    obtain ⟨t', ht', hagrees⟩ := h.kept t ht
    rwa [hagrees.eq] at ht'
  · rwa [h.others name hname]

theorem contains (h : Extended names b b') {name : String}
    (hname : b'.topics.contains name = true) : b.topics.contains name = true ∨ names name := by
  by_cases hin : names name
  · exact Or.inr hin
  · rw [OrderedMap.contains, h.others name hin] at hname
    exact Or.inl hname

end Broker.Extended

namespace Engine

variable {engine : Engine} {configs : ConfigSnapshot} {q : QueryPlan} {s s' : Surroundings}
  {p : PersistentQuery} {e : EngineError}

theorem forSink_eq_ok_iff {partitions : Nat} {r : TopicRequirement} :
    TopicRequirement.forSink q configs partitions = .ok r ↔
      ∃ topic replicas, q.sinkTopic? = some topic ∧
        TopicRequirement.sinkReplicas configs = .ok replicas ∧
        r = { topic, partitions, exactPartitions := false, replicas } := by
  unfold TopicRequirement.forSink
  cases htopic : q.sinkTopic? with
  | none => simp
  | some topic =>
    simp only [map_eq_ok, Option.some.injEq]
    constructor
    · rintro ⟨replicas, hreplicas, rfl⟩
      exact ⟨topic, replicas, rfl, hreplicas, rfl⟩
    · rintro ⟨_, replicas, rfl, hreplicas, rfl⟩
      exact ⟨replicas, hreplicas, rfl⟩

/-- To prepare the sink of a query, its source is described, and what is required of the sink is
brought about. -/
theorem calls_prepareSink {P : BrokerCall → Prop} (hdescribe : ∀ source, P (.describe source))
    (hsink : ∀ partitions r, partitions < partitionLimit →
      TopicRequirement.forSink q configs partitions = .ok r →
        (Reconciliation.ofRequirement r).Calls P) :
    (prepareSink q configs).Calls P := by
  unfold prepareSink
  split
  · trivial
  refine ⟨hdescribe _, ?_⟩
  rintro (fault | description)
  · trivial
  simp only
  split
  · trivial
  rename_i hcount
  split
  · trivial
  rename_i r hr
  apply BrokerProgram.calls_bind (hsink _ r (Nat.lt_of_not_le hcount) hr)
  rintro (fault | _) <;> trivial

/-- Only the sink is taken care of, and it is at most made. -/
theorem tends_prepareSink {sink : String} (h : q.sinkTopic? = some sink) :
    (prepareSink q configs).Calls (BrokerCall.Tends sink fun _ => False) := by
  apply calls_prepareSink
  · exact fun _ => trivial
  · intro partitions r _ hr
    obtain ⟨_, _, htopic, _, rfl⟩ := forSink_eq_ok_iff.1 hr
    rw [h] at htopic
    cases htopic
    exact Reconciliation.tends_ofRequirement fun key _ => rfl

/-! ## One query -/

/-- A query is prepared in two steps, each of which may fail. -/
theorem startQuery_cases (engine : Engine) (configs : ConfigSnapshot) (q : QueryPlan)
    (s : Surroundings) :
    let prepared := (prepareSink q configs).run s.broker
    let made := s.tracker.listen engine.groupPrefix q.id
    (∃ e, prepared.1 = .error e ∧
      engine.startQuery configs q s = (.error e, ⟨prepared.2, s.tracker⟩)) ∨
    (∃ sink e, prepared.1 = .ok sink ∧ made.1 = .error e ∧
      engine.startQuery configs q s = (.error (.observe e), ⟨prepared.2, made.2⟩)) ∨
    ∃ sink listener, prepared.1 = .ok sink ∧ made.1 = .ok listener ∧
      engine.startQuery configs q s =
        (.ok { sink := sink, topology := .ofQuery q configs, listener := listener },
          ⟨prepared.2, made.2⟩) := by
  simp only
  rw [startQuery]
  rcases (prepareSink q configs).run s.broker with ⟨e | sink, broker⟩
  · exact Or.inl ⟨e, rfl, rfl⟩
  · rcases s.tracker.listen engine.groupPrefix q.id with ⟨e | listener, tracker⟩
    · exact Or.inr (Or.inl ⟨sink, e, rfl, rfl, rfl⟩)
    · exact Or.inr (Or.inr ⟨sink, listener, rfl, rfl, rfl⟩)

theorem broker_startQuery (engine : Engine) (configs : ConfigSnapshot) (q : QueryPlan)
    (s : Surroundings) :
    (engine.startQuery configs q s).2.broker = ((prepareSink q configs).run s.broker).2 := by
  rcases engine.startQuery_cases configs q s with ⟨_, _, h⟩ | ⟨_, _, _, _, h⟩ | ⟨_, _, _, _, h⟩ <;>
    rw [h]

/-- The listener that is made for a query. -/
def listenerOf (engine : Engine) (q : QueryPlan) : Listener := .fresh engine.groupPrefix q.id

/-- A query is prepared if its sink can be, it has an id, and its names are free. -/
theorem startQuery_ok_iff :
    (∃ p, (engine.startQuery configs q s).1 = .ok p) ↔
      (∃ sink, ((prepareSink q configs).run s.broker).1 = .ok sink) ∧ q.id ≠ "" ∧
        (engine.listenerOf q).Free s.tracker.registry := by
  rw [listenerOf, ← Tracker.listen_ok_iff]
  rcases engine.startQuery_cases configs q s with ⟨_, hsink, h⟩ | ⟨_, _, hsink, hmade, h⟩ |
    ⟨_, _, hsink, hmade, h⟩
  · simp [h, hsink]
  · simp [h, hmade]
  · simp [h, hsink, hmade]

theorem startQuery_ok (h : engine.startQuery configs q s = (.ok p, s')) :
    ((prepareSink q configs).run s.broker).1 = .ok p.sink ∧
      s'.broker = ((prepareSink q configs).run s.broker).2 ∧
      p.topology = .ofQuery q configs ∧
      (s.tracker.listen engine.groupPrefix q.id).1 = .ok p.listener ∧
      s'.tracker = (s.tracker.listen engine.groupPrefix q.id).2 := by
  rcases engine.startQuery_cases configs q s with ⟨_, _, h'⟩ | ⟨_, _, _, _, h'⟩ |
    ⟨_, _, hsink, hmade, h'⟩
  · cases h.symm.trans h'
  · cases h.symm.trans h'
  · cases h.symm.trans h'
    exact ⟨hsink, rfl, rfl, hmade, rfl⟩

/-- To prepare a query does nothing to topics but to make its sink. -/
theorem extended_startQuery {sink : String} (h : q.sinkTopic? = some sink) :
    Broker.Extended (· = sink) s.broker (engine.startQuery configs q s).2.broker := by
  rw [broker_startQuery]
  exact .of_tended (BrokerProgram.tended_run (tends_prepareSink h) s.broker)

theorem extended_concat {before : List QueryPlan} {b : Broker} {sink : String}
    (h : Broker.Extended (SinkOf before) b s.broker) (hsink : q.sinkTopic? = some sink) :
    Broker.Extended (SinkOf (before ++ [q])) b (engine.startQuery configs q s).2.broker := by
  apply (h.trans (extended_startQuery hsink)).mono
  rintro name (⟨r, hr, hname⟩ | rfl)
  · exact ⟨r, List.mem_append_left _ hr, hname⟩
  · exact ⟨q, List.mem_append_right _ List.mem_cons_self, hsink⟩

/-- A query that cannot be prepared has no effect on listeners and gauges. -/
theorem grown_startQuery_error {t₀ : Tracker} {new : List Listener}
    (hgrown : Tracker.Grown t₀ new s.tracker) (h : (engine.startQuery configs q s).1 = .error e) :
    Tracker.Grown t₀ new (engine.startQuery configs q s).2.tracker := by
  rcases engine.startQuery_cases configs q s with ⟨_, _, h'⟩ | ⟨_, _, _, hmade, h'⟩ |
    ⟨_, _, _, _, h'⟩
  · rw [h']
    exact hgrown
  · rw [h']
    apply hgrown.listen_not_free
    intro hid hfree
    rw [(Tracker.listen_free hid hfree).1] at hmade
    cases hmade
  · rw [h'] at h
    cases h

/-! ## Queries in order -/

section

variable {prepared handles : List PersistentQuery} {qs : List QueryPlan}

theorem startQueries_cons_ok (h : engine.startQuery configs q s = (.ok p, s')) :
    engine.startQueries configs prepared (q :: qs) s =
      engine.startQueries configs (prepared ++ [p]) qs s' := by
  rw [startQueries, h]

theorem startQueries_cons_error (h : engine.startQuery configs q s = (.error e, s')) :
    engine.startQueries configs prepared (q :: qs) s = (.error e, release prepared s') := by
  rw [startQueries, h]

/-- What holds at first, and is kept by each query that is prepared, holds when all are. -/
theorem startQueries_preserves {I : List QueryPlan → List PersistentQuery → Surroundings → Prop}
    (init : I [] prepared s)
    (step : ∀ before q handles s p s', q ∈ qs → I before handles s →
      engine.startQuery configs q s = (.ok p, s') → I (before ++ [q]) (handles ++ [p]) s')
    (h : engine.startQueries configs prepared qs s = (.ok handles, s')) : I qs handles s' := by
  -- The queries that are prepared already move from one list to the other.
  have hrun : ∀ rest before prepared s, (∀ q ∈ rest, q ∈ qs) → I before prepared s →
      engine.startQueries configs prepared rest s = (.ok handles, s') →
        I (before ++ rest) handles s' := by
    intro rest
    induction rest with
    | nil =>
      intro before prepared s _ hI hrun
      cases hrun
      rwa [List.append_nil]
    | cons q rest ih =>
      intro before prepared s hmem hI hrun
      rcases hq : engine.startQuery configs q s with ⟨e | p, s₁⟩
      · rw [startQueries_cons_error hq] at hrun
        cases hrun
      · rw [startQueries_cons_ok hq] at hrun
        have hnext := step before q prepared s p s₁ (hmem q List.mem_cons_self) hI hq
        rw [List.append_cons]
        exact ih _ _ _ (fun r hr => hmem r (List.mem_cons_of_mem _ hr)) hnext hrun
  exact hrun qs [] prepared s (fun _ hq => hq) init h

/-- A run that fails has prepared the queries before one that it could not prepare, and has then
released what it had prepared. -/
theorem startQueries_error (h : (engine.startQueries configs prepared qs s).1 = .error e) :
    ∃ before q after handles s₁, qs = before ++ q :: after ∧
      engine.startQueries configs prepared before s = (.ok handles, s₁) ∧
      (engine.startQuery configs q s₁).1 = .error e ∧
      (engine.startQueries configs prepared qs s).2 =
        release handles (engine.startQuery configs q s₁).2 := by
  induction qs generalizing prepared s with
  | nil => cases h
  | cons q qs ih =>
    rcases hq : engine.startQuery configs q s with ⟨e' | p, s₁⟩
    · rw [startQueries_cons_error hq] at h ⊢
      cases h
      exact ⟨[], q, qs, prepared, s, rfl, rfl, by rw [hq], by rw [hq]⟩
    · rw [startQueries_cons_ok hq] at h ⊢
      obtain ⟨before, r, after, handles, s₂, rfl, hbefore, hfailed, hrest⟩ := ih h
      refine ⟨q :: before, r, after, handles, s₂, rfl, ?_, hfailed, hrest⟩
      rw [startQueries_cons_ok hq, hbefore]

end

/-! ## What is prepared -/

/-- Since the tracker was `t₀`, some queries have been prepared in order, each with a listener of
its own, and these are their handles. -/
structure Prepared (engine : Engine) (configs : ConfigSnapshot) (t₀ : Tracker)
    (qs : List QueryPlan) (handles : List PersistentQuery) (t : Tracker) : Prop where
  grown : Tracker.Grown t₀ (qs.map engine.listenerOf) t
  topologies : handles.map PersistentQuery.topology = qs.map fun q => .ofQuery q configs
  listeners : handles.map PersistentQuery.listener =
    (List.range qs.length).map fun i => t₀.listeners.length + i

namespace Prepared

variable {t₀ t : Tracker} {qs : List QueryPlan} {handles : List PersistentQuery}

theorem nil (engine : Engine) (configs : ConfigSnapshot) (t : Tracker) :
    Prepared engine configs t [] [] t :=
  ⟨.refl t, rfl, rfl⟩

theorem startQuery (h : Prepared engine configs t₀ qs handles s.tracker)
    (hq : engine.startQuery configs q s = (.ok p, s')) :
    Prepared engine configs t₀ (qs ++ [q]) (handles ++ [p]) s'.tracker := by
  obtain ⟨_, _, htopology, hmade, htracker⟩ := startQuery_ok hq
  obtain ⟨hid, hfree⟩ := Tracker.listen_ok_iff.1 ⟨_, hmade⟩
  constructor
  · rw [htracker, List.map_append]
    exact h.grown.listen_free hid hfree
  · rw [List.map_append, List.map_append, h.topologies, List.map_singleton, htopology]
    rfl
  · have hlistener : p.listener = t₀.listeners.length + qs.length := by
      rw [(Tracker.listen_free hid hfree).1] at hmade
      rw [← Except.ok.inj hmade, h.grown.listeners, List.length_append, List.length_map]
    rw [List.map_append, h.listeners, List.length_append, List.length_singleton,
      List.range_succ, List.map_append, List.map_singleton, List.map_singleton, hlistener]

theorem startQueries (h : engine.startQueries configs [] qs s = (.ok handles, s')) :
    Prepared engine configs s.tracker qs handles s'.tracker :=
  startQueries_preserves (I := fun qs handles s' => Prepared engine configs s.tracker qs handles
    s'.tracker) (nil engine configs s.tracker)
    (fun _ _ _ _ _ _ _ hprepared hq => hprepared.startQuery hq) h

/-- If the next query cannot be prepared and those before it are released, the older listeners and
gauges are left. -/
theorem release_error (h : Prepared engine configs t₀ qs handles s.tracker)
    (hq : (engine.startQuery configs q s).1 = .error e) :
    (release handles (engine.startQuery configs q s).2).tracker.registry.gauges =
        t₀.registry.gauges ∧
      t₀.listeners <+: (release handles (engine.startQuery configs q s).2).tracker.listeners := by
  have hclosed := (grown_startQuery_error h.grown hq).closeAll (List.range qs.length)
  rw [← h.listeners] at hclosed
  constructor
  · apply hclosed.gauges_of_shut
    intro l hl
    apply Listener.closed_of_mem_shutAll _ hl
    intro i hi
    rw [List.length_map] at hi
    exact List.mem_range.2 hi
  · exact ⟨_, hclosed.listeners.symm⟩

end Prepared

theorem start_of_decode {plan : List UInt8} {d : PlanDocument}
    (h : PlanDocument.decode plan = .ok d) :
    engine.start plan s = engine.startQueries d.configs [] d.queries s := by
  rw [start, h]

end Engine

end StandingQuery
