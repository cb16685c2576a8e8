import StandingQuery.Proofs.Engine.Creations
import StandingQuery.Proofs.Engine.Failure
import StandingQuery.Proofs.Plan.Chains
import StandingQuery.Proofs.Topic.Acceptance

/-!
# Errors that no plan is to blame for

To prepare a query is guarded against queries without a topic to read or to write, and against
topics with too many partitions. A plan that has been read has no such queries, since each of them
ends in a source and begins with a sink. So these errors do not occur, unless a broker reports more
partitions than can be counted in 32 bits. What can be said for any answers that a broker may give
is said of a program, and then of each broker that gives only such answers.

* `BrokerProgram.yields_bind`: from the parts of a program to the whole.
* `BrokerProgram.yields_run`: from any answers to those of one broker.
* `Broker.Moderate.serve`: a broker with few partitions goes on to have few.
* `Engine.yields_starting`: what can come of starting a plan.
* `Engine.no_query_to_blame`: nothing is wrong with the queries of a plan that has been read.
-/

namespace StandingQuery

/-! ## What can come of a program -/

namespace BrokerProgram

variable {α β : Type} {R : ∀ c : BrokerCall, Except BrokerError c.Reply → Prop} {P : α → Prop}
  {Q : β → Prop}

/-- Every result that a program can have, if its calls get only answers that `R` admits,
satisfies `P`. -/
def Yields (R : ∀ c : BrokerCall, Except BrokerError c.Reply → Prop) (P : α → Prop) :
    BrokerProgram α → Prop
  | done x => P x
  | ask c next => ∀ reply, R c reply → (next reply).Yields R P

/-- In the run of a program, a broker gives only answers that `R` admits. -/
def Answered (R : ∀ c : BrokerCall, Except BrokerError c.Reply → Prop) :
    BrokerProgram α → Broker → Prop
  | done _, _ => True
  | ask c next, b => R c (b.serve c).1 ∧ (next (b.serve c).1).Answered R (b.serve c).2

theorem yields_bind {p : BrokerProgram α} {f : α → BrokerProgram β} (hp : p.Yields R P)
    (hf : ∀ x, P x → (f x).Yields R Q) : (p.bind f).Yields R Q := by
  induction p with
  | done x => exact hf x hp
  | ask c next ih => exact fun reply hreply => ih reply (hp reply hreply)

theorem yields_run {p : BrokerProgram α} {b : Broker} (hp : p.Yields R P) (hb : p.Answered R b) :
    P (p.run b).1 := by
  induction p generalizing b with
  | done x => exact hp
  | ask c next ih => exact ih _ (hp _ hb.1) hb.2

/-- If what holds of a broker makes it give only answers that `R` admits, and is kept by calls,
then all answers in a run are such. -/
theorem answered_of_invariant {I : Broker → Prop} {C : BrokerCall → Prop}
    (step : ∀ b c, C c → I b → R c (b.serve c).1 ∧ I (b.serve c).2) {p : BrokerProgram α}
    (hp : p.Calls C) {b : Broker} (hb : I b) : p.Answered R b := by
  induction p generalizing b with
  | done x => trivial
  | ask c next ih =>
    obtain ⟨hreply, hnext⟩ := step b c hp.1 hb
    exact ⟨hreply, ih _ (hp.2 _) hnext⟩

end BrokerProgram

/-! ## Errors with which a query is refused -/

/-- A requirement cannot be made because there is no topic to write. -/
def TopicError.lacksSink : TopicError → Bool
  | config (.noSinkTopic _) => true
  | _ => false

/-- A query is invalid, or there is no topic that it writes. -/
def EngineError.blamesQuery : EngineError → Bool
  | noSourceTopic _ => true
  | tooManyPartitions _ _ => true
  | topic e => e.lacksSink
  | _ => false

namespace TopicRequirement

variable {configs : ConfigSnapshot} {q : QueryPlan} {r : TopicRequirement} {e : TopicError}

theorem lacksSink_sinkReplicas (h : sinkReplicas configs = .error e) : e.lacksSink = false := by
  rw [sinkReplicas, map_eq_error, replicas?] at h
  split at h <;> cases h <;> rfl

/-- For a query with a sink, only the number of replicas can be wrong. -/
theorem forSink_eq_map {topic : String} (hsink : q.sinkTopic? = some topic)
    (configs : ConfigSnapshot) (partitions : Nat) :
    forSink q configs partitions = (sinkReplicas configs).map fun replicas =>
      { topic, partitions, exactPartitions := false, replicas } := by
  rw [forSink, hsink]

theorem lacksSink_forSink {topic : String} {partitions : Nat} (hsink : q.sinkTopic? = some topic)
    (h : forSink q configs partitions = .error e) : e.lacksSink = false := by
  rw [forSink_eq_map hsink, map_eq_error] at h
  exact lacksSink_sinkReplicas h

theorem lacksSink_validate {d : TopicDescription} (h : r.validate d = .error e) :
    e.lacksSink = false := by
  unfold validate at h
  split at h
  · cases h
    rfl
  · split at h <;> cases h
    rfl

end TopicRequirement

/-- To meet a requirement does not fail because there is no topic to write. -/
theorem Reconciliation.yields_ofRequirement
    {R : ∀ c : BrokerCall, Except BrokerError c.Reply → Prop} (r : TopicRequirement) :
    (ofRequirement r).Yields R fun result => ∀ e, result = .error e → e.lacksSink = false := by
  rintro (fault | missing | present) -
  · rintro _ ⟨⟩
    rfl
  · rintro (fault | _) -
    · cases fault <;> (rintro _ ⟨⟩; rfl)
    · rintro _ ⟨⟩
  · rintro (fault | d) -
    · rintro _ ⟨⟩
      rfl
    simp only
    split
    · rename_i hvalid
      rintro _ ⟨⟩
      exact TopicRequirement.lacksSink_validate hvalid
    unfold reapply
    split
    · rintro _ ⟨⟩
    · rintro (fault | changed) -
      · rintro _ ⟨⟩
        rfl
      · rintro _ ⟨⟩

/-! ## Brokers with few partitions -/

/-- A description has fewer partitions than are too many for a query. -/
def BrokerCall.ReportsFew : ∀ c : BrokerCall, Except BrokerError c.Reply → Prop
  | describe _, .ok d => d.partitionCount < Engine.partitionLimit
  | _, _ => True

/-- A call does not ask for too many partitions. -/
def BrokerCall.RequestsFew : BrokerCall → Prop
  | create _ partitions _ _ => partitions < Engine.partitionLimit
  | _ => True

/-- A broker whose topics have fewer partitions than are too many for a query, and whose
descriptions show no more. -/
structure Broker.Moderate (b : Broker) : Prop where
  topics : ∀ name t, b.topics.find? name = some t → t.partitions.length < Engine.partitionLimit
  described : ∀ name partitions, b.described.find? name = some partitions →
    partitions.length < Engine.partitionLimit

namespace Broker.Moderate

variable {b : Broker} {c : BrokerCall}

theorem reportsFew (hb : b.Moderate) (c : BrokerCall) : c.ReportsFew (b.serve c).1 := by
  cases c with
  | describe name =>
    cases hreply : (b.serve (.describe name)).1 with
    | error fault => trivial
    | ok d =>
      obtain ⟨⟨t, ht, rfl⟩, -⟩ := describe_ok hreply
      show ((b.described.find? name).getD t.partitions).length < Engine.partitionLimit
      cases hdescribed : b.described.find? name with
      | none => exact hb.topics name t ht
      | some partitions => exact hb.described name partitions hdescribed
  | _ => trivial

theorem insert {t : Topic} {name : String} {b' : Broker} (hb : b.Moderate)
    (htopics : b'.topics = b.topics.insert name t)
    (ht : t.partitions.length < Engine.partitionLimit)
    (hdescribed : b'.described = b.described) : b'.Moderate := by
  refine ⟨?_, hdescribed ▸ hb.described⟩
  intro name' t' ht'
  rw [htopics, OrderedMap.find?_insert] at ht'
  split at ht'
  · cases ht'
    exact ht
  · exact hb.topics name' t' ht'

/-- A broker goes on to have few partitions, unless it is asked for many. -/
theorem serve (hb : b.Moderate) (hc : c.RequestsFew) : (b.serve c).2.Moderate := by
  have hdescribed := (b.serve_settings c).1
  rcases b.serve_cases c with hsame | ⟨-, ⟨name, partitions, replicas, config, rfl, -, hmade⟩ |
    ⟨name, config, t, rfl, ht, hset⟩⟩
  · exact ⟨hsame ▸ hb.topics, hdescribed ▸ hb.described⟩
  · apply hb.insert hmade _ hdescribed
    rw [Topic.length_even]
    exact hc
  · exact hb.insert hset (hb.topics name t ht) hdescribed

end Broker.Moderate

/-! ## Starting -/

namespace Engine

variable {engine : Engine} {configs : ConfigSnapshot} {q : QueryPlan} {s : Surroundings}

/-- The sink of a query can be prepared, or something else than the query is to blame. -/
theorem yields_prepareSink {sink : String} (hsink : q.sinkTopic? = some sink) :
    (prepareSink q configs).Yields BrokerCall.ReportsFew
      fun result => ∀ e, result = .error e → e.blamesQuery = false := by
  obtain ⟨source, hsource⟩ := q.exists_sourceTopic
  rw [prepareSink, hsource]
  rintro (fault | d) hfew
  · rintro _ ⟨⟩
    rfl
  have hcount : ¬ partitionLimit ≤ d.partitionCount := Nat.not_le_of_lt hfew
  simp only [if_neg hcount]
  split
  · rename_i e he
    rintro _ ⟨⟩
    exact TopicRequirement.lacksSink_forSink hsink he
  · rename_i r _
    apply BrokerProgram.yields_bind (Reconciliation.yields_ofRequirement r)
    rintro (e | _) hresult
    · rintro _ ⟨⟩
      exact hresult e rfl
    · rintro _ ⟨⟩

theorem yields_preparing {qs : List QueryPlan} (hsinks : ∀ q ∈ qs, ∃ sink, q.sinkTopic? = some sink)
    (prepared : List PersistentQuery) (t : Tracker) :
    (engine.preparing configs prepared qs t).Yields BrokerCall.ReportsFew
      fun result => ∀ e, result.1 = .error e → e.blamesQuery = false := by
  induction qs generalizing prepared t with
  | nil => rintro _ ⟨⟩
  | cons q qs ih =>
    obtain ⟨⟨sink, hsink⟩, hsinks⟩ := List.forall_mem_cons.1 hsinks
    apply BrokerProgram.yields_bind (yields_prepareSink hsink)
    rintro (e | r) hresult
    · rintro _ ⟨⟩
      exact hresult e rfl
    · rcases t.listen engine.groupPrefix q.id with ⟨e | listener, t'⟩
      · rintro _ ⟨⟩
        rfl
      · exact ih hsinks _ _

/-- Whatever a broker answers, as long as it reports few partitions, no query is to blame if a plan
cannot be started. -/
theorem yields_starting (engine : Engine) (plan : List UInt8) (t : Tracker) :
    (engine.starting plan t).Yields BrokerCall.ReportsFew
      fun result => ∀ e, result.1 = .error e → e.blamesQuery = false := by
  unfold starting
  split
  · rintro _ ⟨⟩
    rfl
  · rename_i d hd
    apply yields_preparing
    intro q hq
    exact q.exists_sinkTopic ((PlanDocument.queries_of_decode hd).1 q hq)

theorem requestsFew_prepareSink (q : QueryPlan) (configs : ConfigSnapshot) :
    (prepareSink q configs).Calls BrokerCall.RequestsFew := by
  apply calls_prepareSink
  · exact fun _ => trivial
  · intro partitions r hcount hr
    obtain ⟨_, _, _, _, rfl⟩ := forSink_eq_ok_iff.1 hr
    apply Reconciliation.calls_ofRequirement.mono
    intro c hc
    cases c with
    | create _ _ _ _ =>
      obtain ⟨_, rfl, _⟩ := TopicRequirement.create_mem_calls.1 hc
      exact hcount
    | _ => trivial

theorem answered_starting (engine : Engine) (plan : List UInt8) (t : Tracker) {b : Broker}
    (hb : b.Moderate) : (engine.starting plan t).Answered BrokerCall.ReportsFew b := by
  apply BrokerProgram.answered_of_invariant _ _ hb
  · exact BrokerCall.RequestsFew
  · exact fun b c hc hb => ⟨hb.reportsFew c, hb.serve hc⟩
  · exact calls_starting (fun d _ q _ => requestsFew_prepareSink q d.configs) t

/-- The chain of a node is the only walk from it, and it ends with a source, which has a topic and
is the only source in the chain. A valid query has a topic to write, and no sink below its root. So
no query of a plan that has been read lacks a sink, and if a plan cannot be started, then not
because one of its queries is invalid or has no sink: not if all descriptions that a broker gives
on the way have fewer than `2 ^ 32` partitions, whatever else it answers. This is so, among others,
on a broker whose topics have fewer partitions than that. -/
theorem no_query_to_blame :
    (∀ n : PlanNode, (∀ ns, n.Walk ns ↔ ns = n.steps) ∧
      (∃ above, n.steps = above ++ [n.leaf] ∧ ∀ m ∈ above, m.isSource = false) ∧
      n.leaf.isSource = true ∧ ∃ topic, n.leaf.sourceTopic? = some topic) ∧
    (∀ q : QueryPlan, q.validate = .ok () → (∃ topic, q.sinkTopic? = some topic) ∧
      ∀ n ∈ q.physicalPlan.steps.tail, n.isSink = false) ∧
    (∀ plan d, PlanDocument.decode plan = .ok d → ∀ q ∈ d.queries, ∀ configs partitions query,
      TopicRequirement.forSink q configs partitions ≠ .error (.config (.noSinkTopic query))) ∧
    (∀ (engine : Engine) plan t, (engine.starting plan t).Yields BrokerCall.ReportsFew
      fun result => ∀ e, result.1 = .error e → e.blamesQuery = false) ∧
    (∀ (engine : Engine) plan (s : Surroundings),
      (engine.starting plan s.tracker).Answered BrokerCall.ReportsFew s.broker →
        ∀ query topic, (engine.start plan s).1 ≠ .error (.noSourceTopic query) ∧
          (engine.start plan s).1 ≠ .error (.tooManyPartitions query topic) ∧
          (engine.start plan s).1 ≠ .error (.topic (.config (.noSinkTopic query)))) ∧
    ∀ (engine : Engine) plan t (b : Broker), b.Moderate →
      (engine.starting plan t).Answered BrokerCall.ReportsFew b := by
  refine ⟨?_, ?_, ?_, yields_starting, ?_, fun engine plan t _ => engine.answered_starting plan t⟩
  · intro n
    exact ⟨fun ns => PlanNode.walk_iff_eq_steps, n.exists_steps_eq_concat_leaf, n.isSource_leaf,
      n.exists_sourceTopic_leaf⟩
  · intro q hvalid
    have hwell := QueryPlan.validate_iff_wellFormed.1 hvalid
    exact ⟨q.exists_sinkTopic hvalid, hwell.no_sink_below⟩
  · intro plan d hd q hq configs partitions query h
    obtain ⟨sink, hsink⟩ := q.exists_sinkTopic ((PlanDocument.queries_of_decode hd).1 q hq)
    cases TopicRequirement.lacksSink_forSink hsink h
  · intro engine plan s hfew query topic
    have hnot := BrokerProgram.yields_run (engine.yields_starting plan s.tracker) hfew
    have hrun : (engine.start plan s).1 =
        ((engine.starting plan s.tracker).run s.broker).1.1 := by
      rw [start_eq_run]
      rfl
    rw [hrun]
    refine ⟨?_, ?_, ?_⟩ <;> intro h <;> cases hnot _ h

theorem moderate_occupiedSurroundings : occupiedSurroundings.broker.Moderate := by
  have hempty : ({} : Broker).Moderate := by
    constructor <;> rintro _ _ ⟨⟩
  exact hempty.insert (show _ = OrderedMap.empty.insert "a" (.even 3 1 .empty) from rfl)
    (by decide) rfl

/-- Where the second of two copies cannot be started, it is not to blame. -/
theorem no_copy_to_blame : occupiedSurroundings.broker.Moderate ∧ ∀ query topic,
    (({} : Engine).start relayDocument.encode occupiedSurroundings).1 ≠
        .error (.noSourceTopic query) ∧
      (({} : Engine).start relayDocument.encode occupiedSurroundings).1 ≠
        .error (.tooManyPartitions query topic) ∧
      (({} : Engine).start relayDocument.encode occupiedSurroundings).1 ≠
        .error (.topic (.config (.noSinkTopic query))) := by
  refine ⟨moderate_occupiedSurroundings, ?_⟩
  obtain ⟨-, -, -, -, hstart, hanswered⟩ := no_query_to_blame
  generalize relayDocument.encode = plan
  exact hstart {} plan _ (hanswered {} plan _ _ moderate_occupiedSurroundings)

end Engine

end StandingQuery
