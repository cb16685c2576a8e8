import StandingQuery.Proofs.Engine.Restart
import StandingQuery.Proofs.Topic.Replicas

/-!
# Topics that an engine makes

An engine makes its command topic, and the sinks of the queries that it starts. What it does to a
broker is the run of a program that takes the tracker along, so its calls are known whatever the
broker answers: each new topic has the number of replicas that is selected, by the engine's own
configuration for the command topic and by the snapshot in the plan for sinks. Where no number is
selected, no topic is made.

* `Engine.ensureCommandTopic_eq_run`, `Engine.start_eq_run`: what an engine does is a run of a
  program.
* `Engine.createsWith_starting`: the topics that can be made when a plan is started.
* `Engine.replicas_of_creations`: which numbers are selected, and that no other is used.
-/

namespace StandingQuery

/-! ## Programs that take a tracker along -/

/-- What a program comes to that takes a tracker along, and the surroundings after it. -/
def Surroundings.run {α : Type} (s : Surroundings) (p : BrokerProgram (α × Tracker)) :
    α × Surroundings :=
  let ((result, tracker), broker) := p.run s.broker
  (result, ⟨broker, tracker⟩)

namespace Engine

variable {engine : Engine} {configs : ConfigSnapshot} {q : QueryPlan} {s : Surroundings}

/-- The program that brings the command topic to be as configured. -/
def ensuringCommandTopic (engine : Engine) (t : Tracker) :
    BrokerProgram (Except EngineError Unit × Tracker) :=
  (Reconciliation.ensureInternal engine.config.commandTopic engine.config.snapshot).bind fun
    | .error e => .done (.error (.topic e), t)
    | .ok () => .done (.ok (), t)

/-- The program that prepares queries after those already prepared. -/
def preparing (engine : Engine) (configs : ConfigSnapshot) :
    List PersistentQuery → List QueryPlan → Tracker →
      BrokerProgram (Except EngineError (List PersistentQuery) × Tracker)
  | prepared, [], t => .done (.ok prepared, t)
  | prepared, q :: qs, t => (prepareSink q configs).bind fun
    | .error e => .done (.error e, t.closeAll (prepared.map PersistentQuery.listener))
    | .ok sink =>
      match t.listen engine.groupPrefix q.id with
      | (.error e, t) =>
        .done (.error (.observe e), t.closeAll (prepared.map PersistentQuery.listener))
      | (.ok listener, t) =>
        engine.preparing configs
          (prepared ++ [{ sink := sink, topology := .ofQuery q configs, listener := listener }]) qs t

/-- The program that starts the queries of a plan. -/
def starting (engine : Engine) (plan : List UInt8) (t : Tracker) :
    BrokerProgram (Except EngineError (List PersistentQuery) × Tracker) :=
  match PlanDocument.decode plan with
  | .error e => .done (.error (.plan e), t)
  | .ok document => engine.preparing document.configs [] document.queries t

theorem ensureCommandTopic_eq_run (engine : Engine) (s : Surroundings) :
    engine.ensureCommandTopic s = s.run (engine.ensuringCommandTopic s.tracker) := by
  simp only [ensureCommandTopic, ensuringCommandTopic, Surroundings.run, BrokerProgram.run_bind]
  rcases (Reconciliation.ensureInternal engine.config.commandTopic
    engine.config.snapshot).run s.broker with ⟨e | _, broker⟩ <;> rfl

theorem startQueries_eq_run (prepared : List PersistentQuery) (qs : List QueryPlan)
    (s : Surroundings) :
    engine.startQueries configs prepared qs s =
      s.run (engine.preparing configs prepared qs s.tracker) := by
  induction qs generalizing prepared s with
  | nil => rfl
  | cons q qs ih =>
    simp only [startQueries, startQuery, preparing, Surroundings.run, BrokerProgram.run_bind]
    rcases (prepareSink q configs).run s.broker with ⟨e | sink, broker⟩
    · rfl
    · rcases hmade : s.tracker.listen engine.groupPrefix q.id with ⟨e | listener, tracker⟩
      · rfl
      · exact ih _ _

theorem start_eq_run (engine : Engine) (plan : List UInt8) (s : Surroundings) :
    engine.start plan s = s.run (engine.starting plan s.tracker) := by
  cases hd : PlanDocument.decode plan with
  | error e => simp only [start, starting, hd, Surroundings.run, BrokerProgram.run]
  | ok d =>
    simp only [start, starting, hd]
    exact startQueries_eq_run [] d.queries s

/-! ## What can be made -/

theorem selects_of_forSink {partitions : Nat} {r : TopicRequirement}
    (h : TopicRequirement.forSink q configs partitions = .ok r) :
    configs.Selects [ConfigKey.sinkReplicas] r.replicas := by
  obtain ⟨_, replicas, _, hreplicas, rfl⟩ := forSink_eq_ok_iff.1 h
  exact TopicRequirement.sinkReplicas_iff_selects.1 hreplicas

theorem forSink_iff_selects {partitions r : Nat} {topic : String}
    (hsink : q.sinkTopic? = some topic) :
    (∃ sink, TopicRequirement.forSink q configs partitions = .ok sink ∧ sink.replicas = r) ↔
      configs.Selects [ConfigKey.sinkReplicas] r := by
  constructor
  · rintro ⟨sink, hsized, rfl⟩
    exact selects_of_forSink hsized
  · intro hselected
    have hreplicas := TopicRequirement.sinkReplicas_iff_selects.2 hselected
    exact ⟨_, forSink_eq_ok_iff.2 ⟨topic, r, hsink, hreplicas, rfl⟩, rfl⟩

theorem createsWith_prepareSink (q : QueryPlan) (configs : ConfigSnapshot) :
    (prepareSink q configs).Calls
      (BrokerCall.CreatesWith (configs.Selects [ConfigKey.sinkReplicas])) := by
  apply calls_prepareSink
  · exact fun _ => trivial
  · intro partitions r _ hr
    have hselected := selects_of_forSink hr
    exact Reconciliation.createsWith_ofRequirement hselected hselected.usable

/-- The calls that queries may take, one after another, are those that each may take. -/
theorem calls_preparing {P : BrokerCall → Prop} {qs : List QueryPlan}
    (h : ∀ q ∈ qs, (prepareSink q configs).Calls P) (prepared : List PersistentQuery)
    (t : Tracker) : (engine.preparing configs prepared qs t).Calls P := by
  induction qs generalizing prepared t with
  | nil => trivial
  | cons q qs ih =>
    obtain ⟨hq, hqs⟩ := List.forall_mem_cons.1 h
    apply BrokerProgram.calls_bind hq
    rintro (e | sink)
    · trivial
    · rcases t.listen engine.groupPrefix q.id with ⟨e | listener, t'⟩
      · trivial
      · exact ih hqs _ _

theorem calls_starting {P : BrokerCall → Prop} {plan : List UInt8}
    (h : ∀ d, PlanDocument.decode plan = .ok d →
      ∀ q ∈ d.queries, (prepareSink q d.configs).Calls P) (t : Tracker) :
    (engine.starting plan t).Calls P := by
  unfold starting
  split
  · trivial
  · rename_i d hd
    exact calls_preparing (h d hd) [] t

/-- When a plan is started, topics are made only with the number of replicas that its snapshot
selects for sinks. -/
theorem createsWith_starting (engine : Engine) (plan : List UInt8) (t : Tracker) :
    (engine.starting plan t).Calls (BrokerCall.CreatesWith fun r => ∃ d,
      PlanDocument.decode plan = .ok d ∧ d.configs.Selects [ConfigKey.sinkReplicas] r) := by
  apply calls_starting
  intro d hd q _
  apply (createsWith_prepareSink q d.configs).mono
  rintro (_ | _ | ⟨_, _, replicas, _⟩ | _) hc
  · trivial
  · trivial
  · exact ⟨⟨d, hd, hc.1⟩, hc.2⟩
  · trivial

theorem createsWith_ensuringCommandTopic (engine : Engine) (t : Tracker) :
    (engine.ensuringCommandTopic t).Calls (BrokerCall.CreatesWith
      (engine.config.snapshot.Selects [ConfigKey.sinkReplicas, ConfigKey.internalReplicas])) := by
  apply BrokerProgram.calls_bind (Reconciliation.guarded_ensureInternal _ _).calls
  rintro (e | _) <;> trivial

/-! ## Where nothing is selected -/

/-- A query whose sink has no number of replicas only asks for its source. -/
theorem prepareSink_refused (h : ¬ ∃ r, configs.Selects [ConfigKey.sinkReplicas] r) :
    (prepareSink q configs).Calls fun c => ∃ source, c = .describe source := by
  apply calls_prepareSink
  · exact fun source => ⟨source, rfl⟩
  · intro partitions r _ hr
    exact absurd ⟨_, selects_of_forSink hr⟩ h

theorem startQuery_refused (h : ¬ ∃ r, configs.Selects [ConfigKey.sinkReplicas] r) :
    (∃ e, (engine.startQuery configs q s).1 = .error e) ∧
      (engine.startQuery configs q s).2.broker.topics = s.broker.topics := by
  constructor
  · rcases hq : engine.startQuery configs q s with ⟨e | p, s'⟩
    · exact ⟨e, rfl⟩
    · obtain ⟨_, ⟨_, hsized⟩, _⟩ := prepareSink_ok (startQuery_ok hq).1
      exact absurd ⟨_, selects_of_forSink hsized⟩ h
  · rw [broker_startQuery]
    apply BrokerProgram.run_preserves (R := fun b b' => b'.topics = b.topics) (fun _ => rfl)
      (fun h h' => h'.trans h) _ (prepareSink_refused h)
    rintro b _ ⟨source, rfl⟩
    exact b.topics_serve_describe source

theorem start_refused {plan : List UInt8} {d : PlanDocument} (hd : PlanDocument.decode plan = .ok d)
    (hqueries : d.queries ≠ []) (h : ¬ ∃ r, d.configs.Selects [ConfigKey.sinkReplicas] r) :
    (∃ e, (engine.start plan s).1 = .error e) ∧
      (engine.start plan s).2.broker.topics = s.broker.topics := by
  obtain ⟨q, qs, hsplit⟩ := List.exists_cons_of_ne_nil hqueries
  obtain ⟨⟨e, hfailed⟩, htopics⟩ :
      (∃ e, (engine.startQuery d.configs q s).1 = .error e) ∧
        (engine.startQuery d.configs q s).2.broker.topics = s.broker.topics :=
    startQuery_refused h
  have hq : engine.startQuery d.configs q s =
      (.error e, (engine.startQuery d.configs q s).2) := Prod.ext hfailed rfl
  rw [start_of_decode hd, hsplit, startQueries_cons_error hq]
  exact ⟨⟨e, rfl⟩, htopics⟩

theorem ensureCommandTopic_refused (h : ¬ ∃ r, engine.config.snapshot.Selects
      [ConfigKey.sinkReplicas, ConfigKey.internalReplicas] r) :
    ∃ fault, engine.ensureCommandTopic s = (.error (.topic (.config fault)), s) := by
  obtain ⟨fault, hprogram⟩ := (Reconciliation.guarded_ensureInternal engine.config.commandTopic
    engine.config.snapshot).refused h
  exact ⟨fault, by simp only [ensureCommandTopic, hprogram, BrokerProgram.run]⟩

/-! ## All together -/

/-- The number of replicas of internal topics is the one that is selected by the key for sinks, and
failing that by their own, and that of a sink is selected by the key for sinks alone; all else is
an error of the configuration. Whatever the broker answers, internal topics, the command topic,
topics for which the number is given, and sinks are made only with the number that was selected,
which is from 1 to 65535. Where none is, the first three make no call, and a plan that is started
leaves all topics as they are. -/
theorem replicas_of_creations :
    (∀ configs r, TopicRequirement.internalReplicas configs = .ok r ↔
      configs.Selects ["ksql.sink.replicas", "ksql.internal.topic.replicas"] r) ∧
    (∀ configs e, TopicRequirement.internalReplicas configs = .error e →
      ∃ fault, e = .config fault) ∧
    (∀ q configs partitions topic r, q.sinkTopic? = some topic →
      ((∃ sink, TopicRequirement.forSink q configs partitions = .ok sink ∧ sink.replicas = r) ↔
        configs.Selects ["ksql.sink.replicas"] r)) ∧
    (∀ q configs partitions e, TopicRequirement.forSink q configs partitions = .error e →
      ∃ fault, e = .config fault) ∧
    (∀ topic configs, (Reconciliation.ensureInternal topic configs).Guarded
      (configs.Selects ["ksql.sink.replicas", "ksql.internal.topic.replicas"])) ∧
    (∀ topic (replicationFactor : UInt16) config,
      (Reconciliation.ensureTopic topic replicationFactor.toNat config).Guarded
        fun r => r = replicationFactor.toNat ∧ 1 ≤ r) ∧
    (∀ (engine : Engine) s,
      let selected :=
        engine.config.snapshot.Selects ["ksql.sink.replicas", "ksql.internal.topic.replicas"]
      engine.ensureCommandTopic s = s.run (engine.ensuringCommandTopic s.tracker) ∧
      (engine.ensuringCommandTopic s.tracker).Calls (BrokerCall.CreatesWith selected) ∧
      ((¬ ∃ r, selected r) →
        ∃ fault, engine.ensureCommandTopic s = (.error (.topic (.config fault)), s))) ∧
    ∀ (engine : Engine) plan s,
      engine.start plan s = s.run (engine.starting plan s.tracker) ∧
      (engine.starting plan s.tracker).Calls (BrokerCall.CreatesWith fun r => ∃ d,
        PlanDocument.decode plan = .ok d ∧ d.configs.Selects ["ksql.sink.replicas"] r) ∧
      ∀ d, PlanDocument.decode plan = .ok d → d.queries ≠ [] →
        (¬ ∃ r, d.configs.Selects ["ksql.sink.replicas"] r) →
          (∃ e, (engine.start plan s).1 = .error e) ∧
            (engine.start plan s).2.broker.topics = s.broker.topics := by
  refine ⟨?_, ?_, ?_, ?_, ?_, ?_, ?_, ?_⟩
  · exact fun _ _ => TopicRequirement.internalReplicas_eq_ok_iff
  · exact fun _ _ => TopicRequirement.internalReplicas_error
  · exact fun _ _ _ _ _ => forSink_iff_selects
  · exact fun _ _ _ _ => TopicRequirement.forSink_error
  · exact Reconciliation.guarded_ensureInternal
  · exact Reconciliation.guarded_ensureTopic
  · intro engine s
    exact ⟨engine.ensureCommandTopic_eq_run s, engine.createsWith_ensuringCommandTopic s.tracker,
      ensureCommandTopic_refused⟩
  · intro engine plan s
    exact ⟨engine.start_eq_run plan s, engine.createsWith_starting plan s.tracker,
      fun _ => start_refused⟩

/-- The two copies, under a configuration that asks for no replicas of their sinks. -/
def unreplicatedDocument : PlanDocument :=
  { relayDocument with configs := .ofList [("ksql.sink.replicas", some "0")] }

/-- Although the source is there, the copies are not started, and no sink is made. -/
theorem replicas_of_unreplicated :
    (∃ e, (({} : Engine).start unreplicatedDocument.encode { broker := inputBroker }).1 =
      .error e) ∧
    (({} : Engine).start unreplicatedDocument.encode { broker := inputBroker }).2.broker.topics =
      inputBroker.topics := by
  have hread : PlanDocument.decode unreplicatedDocument.encode = .ok unreplicatedDocument := by
    apply PlanDocument.decode_encode_eq_ok_iff.2
    refine ⟨⟨by decide +kernel, ?_, by decide +kernel⟩, rfl⟩
    intro e he
    rcases List.mem_pair.1 he with rfl | rfl
    · exact copyEntry_withinLimit "a" "b" "q"
    · exact copyEntry_withinLimit "b" "c" "r"
  have hnone : ¬ ∃ r, unreplicatedDocument.configs.Selects ["ksql.sink.replicas"] r := by
    rintro ⟨r, hr⟩
    have hzero : TopicRequirement.sinkReplicas unreplicatedDocument.configs =
        .error (.config (.zeroReplicas "ksql.sink.replicas")) := by
      decide +kernel
    rw [TopicRequirement.sinkReplicas_iff_selects.2 hr] at hzero
    cases hzero
  obtain ⟨-, -, -, -, -, -, -, hstart⟩ := replicas_of_creations
  obtain ⟨-, -, hrefused⟩ :=
    hstart {} unreplicatedDocument.encode { broker := inputBroker }
  exact hrefused unreplicatedDocument hread (by decide) hnone

end Engine

end StandingQuery
