import StandingQuery.Proofs.Topic.Calls

/-!
# Upkeep of topics

Requests to bring topics to be as required never take anything away: a topic that exists keeps
its partitions and all its settings except its retention. Each request touches only the topic
that it names, and touches nothing if it fails, since the only call that changes anything is the
last one that it makes. All this holds whichever calls fail and whether or not creations lose a
race.

* `Reconciliation.calls_ofRequirement`: the calls that a request can make.
* `Reconciliation.atomic_ofRequirement`: requests that fail leave the topics as they were.
* `Broker.topics_afterRequests`: what any run of requests does to the topics.
-/

namespace StandingQuery

theorem TopicRequirement.find?_reapplied (r : TopicRequirement) (key : String) :
    r.reapplied.find? key = if key = retentionKey then r.config.find? key else none := by
  simp only [reapplied, OrderedMap.find?_filter r.config (fun key => key == retentionKey),
    beq_iff_eq]

/-- The calls that it can take to meet a requirement. -/
def TopicRequirement.calls (r : TopicRequirement) : List BrokerCall :=
  [.topicExists r.topic, .create r.topic r.partitions r.replicas r.config, .describe r.topic,
    .addConfig r.topic r.reapplied]

namespace TopicRequirement

variable {r : TopicRequirement} {name : String} {config : TopicConfig}

@[simp]
theorem topicExists_mem_calls : .topicExists name ∈ r.calls ↔ name = r.topic := by
  simp [calls]

@[simp]
theorem create_mem_calls {partitions replicas : Nat} :
    .create name partitions replicas config ∈ r.calls ↔
      name = r.topic ∧ partitions = r.partitions ∧ replicas = r.replicas ∧ config = r.config := by
  simp [calls]

@[simp]
theorem describe_mem_calls : .describe name ∈ r.calls ↔ name = r.topic := by
  simp [calls]

@[simp]
theorem addConfig_mem_calls :
    .addConfig name config ∈ r.calls ↔ name = r.topic ∧ config = r.reapplied := by
  simp [calls]

end TopicRequirement

/-! ## Programs that fail without effect -/

namespace BrokerProgram

variable {ε α : Type}

/-- If a program fails, it has changed no topic. -/
def Atomic (p : BrokerProgram (Except ε α)) : Prop :=
  ∀ b e, (p.run b).1 = .error e → (p.run b).2.topics = b.topics

theorem atomic_done (x : Except ε α) : (done x).Atomic := fun _ _ _ => rfl

/-- A call that changes no topic can stand before a program that fails without effect. -/
theorem atomic_ask {c : BrokerCall} {next : Except BrokerError c.Reply → BrokerProgram (Except ε α)}
    (hc : ∀ b : Broker, (b.serve c).2.topics = b.topics) (hnext : ∀ reply, (next reply).Atomic) :
    (ask c next).Atomic := by
  intro b e h
  exact (hnext _ _ e h).trans (hc b)

/-- A program that succeeds if its only call does fails without effect. -/
theorem atomic_ask_last {c : BrokerCall}
    {next : Except BrokerError c.Reply → BrokerProgram (Except ε α)}
    (hok : ∀ y, ∃ x, next (.ok y) = done (.ok x)) (herror : ∀ e, ∃ x, next (.error e) = done x) :
    (ask c next).Atomic := by
  intro b e h
  rw [run] at h ⊢
  cases hreply : (b.serve c).1 with
  | ok y =>
    obtain ⟨x, hx⟩ := hok y
    rw [hreply, hx] at h
    cases h
  | error fault =>
    obtain ⟨x, hx⟩ := herror fault
    rw [hx]
    exact Broker.topics_serve_error hreply

end BrokerProgram

/-! ## Meeting one requirement -/

namespace Reconciliation

variable {settable : String → Prop} {r : TopicRequirement}

theorem calls_create : (create r).Calls (· ∈ r.calls) := by
  refine ⟨by simp, ?_⟩
  rintro (e | _)
  · cases e <;> trivial
  · trivial

theorem calls_reapply : (reapply r).Calls (· ∈ r.calls) := by
  unfold reapply
  split
  · trivial
  · refine ⟨by simp, ?_⟩
    rintro (e | changed) <;> trivial

theorem calls_update : (update r).Calls (· ∈ r.calls) := by
  refine ⟨by simp, ?_⟩
  rintro (e | d)
  · trivial
  · simp only
    split
    · trivial
    · exact calls_reapply

theorem calls_ofRequirement : (ofRequirement r).Calls (· ∈ r.calls) := by
  refine ⟨by simp, ?_⟩
  rintro (e | missing | present)
  · trivial
  · exact calls_create
  · exact calls_update

/-- To meet a requirement, only its topic is taken care of, and only the settings that are to be
kept are set. -/
theorem tends_ofRequirement (h : ∀ key, ¬ settable key → r.reapplied.find? key = none) :
    (ofRequirement r).Calls (BrokerCall.Tends r.topic settable) := by
  apply calls_ofRequirement.mono
  intro c hc
  cases c with
  | topicExists _ => trivial
  | describe _ => trivial
  | create _ _ _ _ => exact (TopicRequirement.create_mem_calls.1 hc).1
  | addConfig _ _ =>
    obtain ⟨rfl, rfl⟩ := TopicRequirement.addConfig_mem_calls.1 hc
    exact ⟨rfl, h⟩

theorem atomic_create (r : TopicRequirement) : (create r).Atomic := by
  apply BrokerProgram.atomic_ask_last
  · intro y
    exact ⟨(), rfl⟩
  · intro e
    cases e <;> exact ⟨_, rfl⟩

theorem atomic_reapply (r : TopicRequirement) : (reapply r).Atomic := by
  unfold reapply
  split
  · exact BrokerProgram.atomic_done _
  · apply BrokerProgram.atomic_ask_last
    · intro changed
      exact ⟨(), rfl⟩
    · intro e
      exact ⟨_, rfl⟩

theorem atomic_ofRequirement (r : TopicRequirement) : (ofRequirement r).Atomic := by
  apply BrokerProgram.atomic_ask
  · exact fun b => b.topics_serve_topicExists r.topic
  rintro (e | missing | present)
  · exact BrokerProgram.atomic_done _
  · exact atomic_create r
  · apply BrokerProgram.atomic_ask
    · exact fun b => b.topics_serve_describe r.topic
    rintro (e | d)
    · exact BrokerProgram.atomic_done _
    · simp only
      split
      · exact BrokerProgram.atomic_done _
      · exact atomic_reapply r

end Reconciliation

/-! ## Runs of requests -/

/-- A request to bring a topic to be as required. -/
inductive TopicRequest
  | reconcile (r : TopicRequirement)
  | ensureTopic (topic : String) (replicationFactor : Nat) (config : TopicConfig)
  | ensureInternal (topic : String) (configs : ConfigSnapshot)

namespace TopicRequest

/-- The topic that a request names. -/
def topic : TopicRequest → String
  | reconcile r => r.topic
  | ensureTopic topic _ _ => topic
  | ensureInternal topic _ => topic

/-- The program that does what is requested. -/
def program : TopicRequest → Reconciliation
  | reconcile r => .ofRequirement r
  | ensureTopic topic replicationFactor config => .ensureTopic topic replicationFactor config
  | ensureInternal topic configs => .ensureInternal topic configs

theorem program_cases (q : TopicRequest) :
    (∃ e, q.program = .done (.error e)) ∨
      ∃ r, r.topic = q.topic ∧ q.program = .ofRequirement r := by
  cases q with
  | reconcile r => exact Or.inr ⟨r, rfl, rfl⟩
  | ensureTopic topic replicationFactor config =>
    simp only [program, Reconciliation.ensureTopic]
    split
    · exact Or.inl ⟨_, rfl⟩
    · exact Or.inr ⟨_, rfl, rfl⟩
  | ensureInternal topic configs =>
    simp only [program, Reconciliation.ensureInternal]
    split
    · exact Or.inl ⟨_, rfl⟩
    · exact Or.inr ⟨_, rfl, rfl⟩

theorem calls_program (q : TopicRequest) :
    q.program.Calls (BrokerCall.Tends q.topic (· = TopicRequirement.retentionKey)) := by
  rcases q.program_cases with ⟨e, he⟩ | ⟨r, hr, hprogram⟩
  · rw [he]
    trivial
  · rw [hprogram, ← hr]
    apply Reconciliation.tends_ofRequirement
    intro key hkey
    rw [r.find?_reapplied, if_neg hkey]

theorem atomic_program (q : TopicRequest) : q.program.Atomic := by
  rcases q.program_cases with ⟨e, he⟩ | ⟨r, _, hprogram⟩
  · rw [he]
    exact BrokerProgram.atomic_done _
  · rw [hprogram]
    exact Reconciliation.atomic_ofRequirement r

end TopicRequest

namespace Broker

/-- The broker after some requests, each of which may have failed. -/
def afterRequests (b : Broker) (qs : List TopicRequest) : Broker :=
  qs.foldl (fun b q => (q.program.run b).2) b

theorem afterRequests_append (b : Broker) (qs qs' : List TopicRequest) :
    b.afterRequests (qs ++ qs') = (b.afterRequests qs).afterRequests qs' :=
  List.foldl_append

/-- Each topic is still there, with its partitions and all its settings except its retention. -/
def Keeps (b b' : Broker) : Prop :=
  ∀ name t, b.topics.find? name = some t →
    ∃ t', b'.topics.find? name = some t' ∧ t.AgreesBut (· = TopicRequirement.retentionKey) t'

theorem Tended.keeps {topic : String} {b b' : Broker}
    (h : Tended topic (· = TopicRequirement.retentionKey) b b') : b.Keeps b' := by
  intro name t ht
  by_cases hname : name = topic
  · subst hname
    exact h.kept t ht
  · exact ⟨t, (h.others name hname).trans ht, .refl t⟩

theorem keeps_afterRequests (b : Broker) (qs : List TopicRequest) :
    b.Keeps (b.afterRequests qs) := by
  induction qs generalizing b with
  | nil => exact fun _ t ht => ⟨t, ht, .refl t⟩
  | cons q qs ih =>
    intro name t ht
    obtain ⟨u, hu, htu⟩ := (BrokerProgram.tended_run q.calls_program b).keeps name t ht
    obtain ⟨v, hv, huv⟩ := ih (q.program.run b).2 name u hu
    exact ⟨v, hv, htu.trans huv⟩

/-- In a run of requests, a topic that exists at some point exists from then on, with the
same partitions and the same settings but for its retention. Each request leaves the other
topics as they are, and leaves all topics as they are if it fails. -/
theorem topics_afterRequests (b : Broker) (requests : List TopicRequest) :
    (∀ before after, requests = before ++ after →
      ∀ name t, (b.afterRequests before).topics.find? name = some t →
        ∃ t', (b.afterRequests requests).topics.find? name = some t' ∧
          t'.partitions = t.partitions ∧
          ∀ key, key ≠ "retention.ms" → t'.config.find? key = t.config.find? key) ∧
    ∀ before q after, requests = before ++ q :: after →
      (∀ name, name ≠ q.topic →
        (b.afterRequests (before ++ [q])).topics.find? name =
          (b.afterRequests before).topics.find? name) ∧
      ∀ e, (q.program.run (b.afterRequests before)).1 = .error e →
        (b.afterRequests (before ++ [q])).topics = (b.afterRequests before).topics := by
  constructor
  · rintro before after rfl name t ht
    rw [afterRequests_append]
    obtain ⟨t', ht', hagrees⟩ := keeps_afterRequests (b.afterRequests before) after name t ht
    exact ⟨t', ht', hagrees.partitions, hagrees.config⟩
  · rintro before q after rfl
    rw [afterRequests_append]
    constructor
    · exact (BrokerProgram.tended_run q.calls_program (b.afterRequests before)).others
    · exact q.atomic_program (b.afterRequests before)

end Broker

end StandingQuery
