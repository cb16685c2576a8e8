import StandingQuery.Proofs.Topic.Outcome
import StandingQuery.Proofs.Topic.Upkeep

/-!
# What the outcome of a requirement tells

A requirement is met in one of two ways. A topic that is missing is made just as required, with
all its settings. A topic that exists is judged by its partitions alone, in the order in which
they are described, and if it passes, its retention is set, whatever else is required of it. Both
ways lead to a topic that meets the requirement. This much holds whichever calls might fail,
since a requirement that is met is one on whose way no call has failed.

On a broker that is steady the outcome is known beforehand, the faults of a topic that is refused
included: a pinned number of partitions comes first, then the first partition with too few
replicas.

* `Topic.Meets`: when a topic is as required.
* `Broker.Met`: the two ways in which a requirement can be met, with all their effects.
* `Reconciliation.met_of_run_ok`: there is no other way.
* `Reconciliation.outcome_ofRequirement`: the outcome of a requirement, and what it tells.
-/

namespace StandingQuery

/-! ## Topics that are as required -/

/-- A topic is as required: it has the number of partitions, if that is pinned, and each of them
has enough replicas. -/
structure Topic.Meets (t : Topic) (r : TopicRequirement) : Prop where
  partitions : r.exactPartitions = true → t.partitions.length = r.partitions
  replicas : ∀ p ∈ t.partitions, r.replicas ≤ p.replicationFactor

namespace Topic

variable {r : TopicRequirement} {t t' : Topic}

/-- Only partitions matter. -/
theorem Meets.of_partitions (h : t.Meets r) (hsame : t'.partitions = t.partitions) :
    t'.Meets r := by
  constructor <;> rw [hsame]
  · exact h.partitions
  · exact h.replicas

theorem meets_even (r : TopicRequirement) :
    (even r.partitions r.replicas r.config).Meets r := by
  constructor
  · intro _
    exact length_even r.partitions r.replicas r.config
  · intro p hp
    exact Nat.le_of_eq (replicationFactor_even hp).symm

end Topic

namespace TopicRequirement

variable {r : TopicRequirement} {t : Topic}

theorem validate_ok_iff_meets : r.validate ⟨r.topic, t.partitions⟩ = .ok () ↔ t.Meets r := by
  rw [validate_ok_iff]
  constructor
  · rintro ⟨hpartitions, hreplicas⟩
    exact ⟨hpartitions, hreplicas⟩
  · rintro ⟨hpartitions, hreplicas⟩
    exact ⟨hpartitions, hreplicas⟩

/-- A wrong number of partitions is reported whatever the replicas are. -/
theorem validate_miscounted (hpinned : r.exactPartitions = true)
    (hcount : t.partitions.length ≠ r.partitions) :
    r.validate ⟨r.topic, t.partitions⟩ =
      .error (.invalidPartitionCount r.topic r.partitions t.partitions.length) := by
  simp [validate, TopicDescription.partitionCount, hpinned, hcount]

/-- Of the partitions with too few replicas the first is reported. -/
theorem validate_underReplicated {before after : List Partition} {p : Partition}
    (hcount : r.exactPartitions = true → t.partitions.length = r.partitions)
    (hsplit : t.partitions = before ++ p :: after)
    (hbefore : ∀ q ∈ before, r.replicas ≤ q.replicationFactor)
    (hp : p.replicationFactor < r.replicas) :
    r.validate ⟨r.topic, t.partitions⟩ =
      .error (.invalidReplicationFactor r.topic p.id r.replicas p.replicationFactor) := by
  have hcounted : ¬ (r.exactPartitions && t.partitions.length != r.partitions) = true := by
    simpa using hcount
  have hfound : r.underReplicated? ⟨r.topic, t.partitions⟩ = some p := by
    rw [underReplicated?, List.find?_eq_some_iff_append]
    refine ⟨decide_eq_true hp, before, after, hsplit, ?_⟩
    intro q hq
    simpa using hbefore q hq
  rw [validate, TopicDescription.partitionCount, if_neg hcounted, hfound]

end TopicRequirement

/-! ## Settings that are there already -/

theorem OrderedMap.insert_of_find? {β : Type} {m : OrderedMap β} {k : String} {v : β}
    (h : m.find? k = some v) : m.insert k v = m := by
  apply ext_find?
  intro k'
  rw [find?_insert]
  split
  · rename_i hk
    rw [hk, h]
  · rfl

namespace Broker

theorem foldl_addSetting_of_forall {es : List (String × String)} (hes : Entries.Ordered es)
    {config : TopicConfig} (h : ∀ key v, es.lookup key = some v → config.find? key = some v) :
    es.foldl addSetting (config, false) = (config, false) := by
  induction es with
  | nil => rfl
  | cons e es ih =>
    obtain ⟨a, v⟩ := e
    obtain ⟨ha, hes⟩ := List.pairwise_cons.1 hes
    have hfirst : config.find? a = some v := h a v List.lookup_cons_self
    rw [List.foldl_cons, addSetting, if_pos hfirst]
    apply ih hes
    intro key w hw
    -- The key of the first entry does not come again.
    have hkey : key ≠ a := by
      rintro rfl
      rw [Entries.lookup_of_forall_lt ha] at hw
      cases hw
    apply h
    rwa [List.lookup_cons, beq_eq_false_iff_ne.2 hkey]

/-- To add settings that are there already changes nothing. -/
theorem mergeConfig_of_forall {config added : TopicConfig}
    (h : ∀ key v, added.find? key = some v → config.find? key = some v) :
    mergeConfig config added = (config, false) := by
  rw [mergeConfig_eq]
  exact foldl_addSetting_of_forall added.ordered h

/-! ## Answers -/

variable {b b' : Broker} {name : String} {c : BrokerCall}

/-- The broker once a call has reached its topics: the call is counted and logged. For a question
this is all that it changes. -/
def answered (b : Broker) (c : BrokerCall) : Broker :=
  { b with requests := b.requests + 1, log := b.log ++ [c] }

theorem Truthful.answered (h : b.Truthful) (c : BrokerCall) : (b.answered c).Truthful := h

/-- A call that yields something has been acted on. -/
theorem serve_of_ok {x : c.Reply} (h : (b.serve c).1 = .ok x) :
    b.serve c = (b.answered c).act c := by
  unfold serve at h ⊢
  split
  · rename_i e he
    simp only [he] at h
    cases h
  · rfl

theorem topicExists_ok {there : Bool} (h : (b.serve (.topicExists name)).1 = .ok there) :
    there = b.topics.contains name ∧
      (b.serve (.topicExists name)).2 = b.answered (.topicExists name) := by
  have hact := serve_of_ok h
  rw [hact] at h ⊢
  exact ⟨(Except.ok.inj h).symm, rfl⟩

theorem describe_ok {d : TopicDescription} (h : (b.serve (.describe name)).1 = .ok d) :
    (∃ t, b.topics.find? name = some t ∧
        d = ⟨name, (b.described.find? name).getD t.partitions⟩) ∧
      (b.serve (.describe name)).2 = b.answered (.describe name) := by
  have hact := serve_of_ok h
  rw [hact] at h ⊢
  cases ht : (b.answered (.describe name)).topics.find? name with
  | none => simp [act, ht] at h
  | some t =>
    refine ⟨⟨t, ht, ?_⟩, by simp only [act, ht]⟩
    simp only [act, ht] at h
    exact (Except.ok.inj h).symm

theorem create_ok {partitions replicas : Nat} {config : TopicConfig}
    (h : (b.serve (.create name partitions replicas config)).1 = .ok ()) :
    b.createRaces = false ∧ b.topics.find? name = none ∧
      (b.serve (.create name partitions replicas config)).2.topics =
        b.topics.insert name (.even partitions replicas config) ∧
      (b.serve (.create name partitions replicas config)).2.mutations = b.mutations + 1 := by
  have hact := serve_of_ok h
  rw [hact] at h ⊢
  cases htaken : b.createRaces || b.topics.contains name with
  | true => simp [act, answered, htaken] at h
  | false =>
    obtain ⟨hraces, hmissing⟩ := Bool.or_eq_false_iff.1 htaken
    have hnew : b.topics.find? name = none := by simpa [OrderedMap.contains] using hmissing
    exact ⟨hraces, hnew, by simp [act, answered, htaken], by simp [act, answered, htaken]⟩

theorem addConfig_ok {config : TopicConfig} {changed : Bool}
    (h : (b.serve (.addConfig name config)).1 = .ok changed) :
    ∃ t, b.topics.find? name = some t ∧
      (b.serve (.addConfig name config)).2.topics =
        b.topics.insert name { t with config := (mergeConfig t.config config).1 } ∧
      (b.serve (.addConfig name config)).2.mutations =
        if (mergeConfig t.config config).2 then b.mutations + 1 else b.mutations := by
  have hact := serve_of_ok h
  rw [hact] at h ⊢
  cases ht : b.topics.find? name with
  | none => simp [act, answered, ht] at h
  | some t => exact ⟨t, rfl, by simp [act, answered, ht], by simp [act, answered, ht]⟩

/-! ## Two ways to meet a requirement -/

/-- Between two brokers a requirement has been met: its topic was missing and has been made, or
it was there, as required, and settings have been applied again. -/
inductive Met (r : TopicRequirement) (b b' : Broker) : Prop
  | made (hraces : b.createRaces = false) (hmissing : b.topics.find? r.topic = none)
      (htopics : b'.topics = b.topics.insert r.topic (.even r.partitions r.replicas r.config))
      (hmutations : b'.mutations = b.mutations + 1)
  | kept (t : Topic) (ht : b.topics.find? r.topic = some t) (hmeets : t.Meets r)
      (htopics : b'.topics =
        b.topics.insert r.topic { t with config := (mergeConfig t.config r.reapplied).1 })
      (hmutations : b'.mutations =
        if (mergeConfig t.config r.reapplied).2 then b.mutations + 1 else b.mutations)

/-- A question before it makes no difference. -/
theorem Met.of_answered {r : TopicRequirement} (h : (b.answered c).Met r b') : b.Met r b' := by
  cases h with
  | made hraces hmissing htopics hmutations => exact .made hraces hmissing htopics hmutations
  | kept t ht hmeets htopics hmutations => exact .kept t ht hmeets htopics hmutations

/-- Either way, the topic is as required afterwards, with the retention that is required, and
what it had before it has kept. -/
theorem Met.topic {r : TopicRequirement} (h : b.Met r b') :
    ∃ t', b'.topics.find? r.topic = some t' ∧ t'.Meets r ∧
      (∀ v, r.config.find? TopicRequirement.retentionKey = some v →
        t'.config.find? TopicRequirement.retentionKey = some v) ∧
      ∀ t, b.topics.find? r.topic = some t →
        t.AgreesBut (· = TopicRequirement.retentionKey) t' := by
  cases h with
  | made _ hmissing htopics =>
    refine ⟨.even r.partitions r.replicas r.config, ?_, Topic.meets_even r, fun v hv => hv, ?_⟩
    · rw [htopics, OrderedMap.find?_insert, if_pos rfl]
    · intro t ht
      rw [hmissing] at ht
      cases ht
  | kept t ht hmeets htopics =>
    refine ⟨{ t with config := (mergeConfig t.config r.reapplied).1 }, ?_,
      hmeets.of_partitions rfl, ?_, ?_⟩
    · rw [htopics, OrderedMap.find?_insert, if_pos rfl]
    · intro v hv
      rw [find?_mergeConfig, r.find?_reapplied, if_pos rfl, hv]
      rfl
    · intro u hu
      obtain rfl : t = u := Option.some.inj (ht.symm.trans hu)
      apply Topic.AgreesBut.merge
      intro key hkey
      rw [r.find?_reapplied, if_neg hkey]

end Broker

/-! ## Judging the outcome -/

namespace Reconciliation

variable {b : Broker} {r : TopicRequirement} {t : Topic}

/-- A topic that passes has its settings applied again, if there are any to apply. -/
theorem kept_of_reapply_ok (ht : b.topics.find? r.topic = some t)
    (h : ((reapply r).run b).1 = .ok ()) :
    ((reapply r).run b).2.topics = b.topics.insert r.topic
        { t with config := (Broker.mergeConfig t.config r.reapplied).1 } ∧
      ((reapply r).run b).2.mutations =
        if (Broker.mergeConfig t.config r.reapplied).2 then b.mutations + 1 else b.mutations := by
  unfold reapply at h ⊢
  split
  · rename_i hempty
    have hnone : ∀ key v, r.reapplied.find? key = some v → t.config.find? key = some v := by
      intro key v hv
      rw [OrderedMap.find?, List.isEmpty_iff.1 hempty] at hv
      cases hv
    rw [Broker.mergeConfig_of_forall hnone]
    exact ⟨(OrderedMap.insert_of_find? ht).symm, rfl⟩
  · rename_i hsome
    rw [if_neg hsome, BrokerProgram.run] at h
    rw [BrokerProgram.run]
    cases hreply : (b.serve (.addConfig r.topic r.reapplied)).1 with
    | error e => simp [hreply, BrokerProgram.run] at h
    | ok changed =>
      obtain ⟨u, hu, htopics, hmutations⟩ := Broker.addConfig_ok hreply
      obtain rfl : t = u := Option.some.inj (ht.symm.trans hu)
      exact ⟨htopics, hmutations⟩

theorem met_of_create_ok (h : ((create r).run b).1 = .ok ()) : b.Met r ((create r).run b).2 := by
  simp only [create, BrokerProgram.run] at h ⊢
  cases hmade : (b.serve (.create r.topic r.partitions r.replicas r.config)).1 with
  | error e => cases e <;> simp [hmade, BrokerProgram.run] at h
  | ok _ =>
    obtain ⟨hraces, hmissing, htopics, hmutations⟩ := Broker.create_ok hmade
    exact .made hraces hmissing htopics hmutations

theorem met_of_update_ok (hb : b.Truthful) (h : ((update r).run b).1 = .ok ()) :
    b.Met r ((update r).run b).2 := by
  simp only [update, BrokerProgram.run] at h ⊢
  cases hreply : (b.serve (.describe r.topic)).1 with
  | error e => simp [hreply, BrokerProgram.run] at h
  | ok d =>
    obtain ⟨⟨t, ht, rfl⟩, hb'⟩ := Broker.describe_ok hreply
    simp only [hreply, hb', hb.described_eq ht] at h ⊢
    cases hvalid : r.validate ⟨r.topic, t.partitions⟩ with
    | error e => simp [hvalid, BrokerProgram.run] at h
    | ok _ =>
      rw [hvalid] at h
      have hthere : (b.answered (.describe r.topic)).topics.find? r.topic = some t := ht
      obtain ⟨htopics, hmutations⟩ := kept_of_reapply_ok hthere h
      exact .kept t ht (TopicRequirement.validate_ok_iff_meets.1 hvalid) htopics hmutations

/-- A requirement that is met is met in one of the two ways, whichever calls might have failed. -/
theorem met_of_run_ok (hb : b.Truthful) (h : ((ofRequirement r).run b).1 = .ok ()) :
    b.Met r ((ofRequirement r).run b).2 := by
  rw [ofRequirement, BrokerProgram.run] at h ⊢
  cases hexists : (b.serve (.topicExists r.topic)).1 with
  | error e =>
    rw [hexists] at h
    cases h
  | ok there =>
    obtain ⟨-, hb'⟩ := Broker.topicExists_ok hexists
    rw [hexists, hb'] at h
    rw [hb']
    cases there with
    | false => exact (met_of_create_ok h).of_answered
    | true => exact (met_of_update_ok (hb.answered _) h).of_answered

/-- Where the topic is missing and creations lose their races, the race is reported. -/
theorem run_ofRequirement_raced (hb : b.Steady) (hraces : b.createRaces = true)
    (hmissing : b.topics.find? r.topic = none) :
    ((ofRequirement r).run b).1 = .error (.topicExists r.topic) := by
  have hexists : (b.serve (.topicExists r.topic)).1 = .ok false := by
    rw [hb.serve_topicExists]
    simp [OrderedMap.contains, hmissing]
  have htaken : ((b.serve (.topicExists r.topic)).2.createRaces ||
      (b.serve (.topicExists r.topic)).2.topics.contains r.topic) = true := by
    rw [(b.serve_settings _).2.1, hraces, Bool.true_or]
  have hlost := (hb.serve (.topicExists r.topic)).serve_create_taken htaken r.partitions
    r.replicas r.config
  rw [ofRequirement, BrokerProgram.run, hexists]
  simp only [create, BrokerProgram.run, hlost]

/-- On a broker on which no call fails and descriptions are true, a requirement is met if and
only if its topic is missing and can be made, or exists with the required number of partitions,
if that is pinned, and with enough replicas of each partition. A wrong number of partitions is
reported before everything else, and then the first partition with too few replicas. Once the
requirement is met, the topic is there as required, with the retention that is required, and a
topic that was there before has kept its partitions and all its other settings. -/
theorem outcome_ofRequirement (hb : b.Steady) (r : TopicRequirement) :
    (((ofRequirement r).run b).1 = .ok () ↔
      b.topics.find? r.topic = none ∧ b.createRaces = false ∨
        ∃ t, b.topics.find? r.topic = some t ∧
          (r.exactPartitions = true → t.partitions.length = r.partitions) ∧
            ∀ p ∈ t.partitions, r.replicas ≤ p.replicationFactor) ∧
    (b.topics.find? r.topic = none → b.createRaces = true →
      ((ofRequirement r).run b).1 = .error (.topicExists r.topic)) ∧
    (∀ t, b.topics.find? r.topic = some t → r.exactPartitions = true →
      t.partitions.length ≠ r.partitions →
        ((ofRequirement r).run b).1 =
          .error (.invalidPartitionCount r.topic r.partitions t.partitions.length)) ∧
    (∀ t before p after, b.topics.find? r.topic = some t →
      (r.exactPartitions = true → t.partitions.length = r.partitions) →
      t.partitions = before ++ p :: after →
      (∀ q ∈ before, r.replicas ≤ q.replicationFactor) → p.replicationFactor < r.replicas →
        ((ofRequirement r).run b).1 =
          .error (.invalidReplicationFactor r.topic p.id r.replicas p.replicationFactor)) ∧
    (((ofRequirement r).run b).1 = .ok () →
      ∃ t', ((ofRequirement r).run b).2.topics.find? r.topic = some t' ∧
        (r.exactPartitions = true → t'.partitions.length = r.partitions) ∧
        (∀ p ∈ t'.partitions, r.replicas ≤ p.replicationFactor) ∧
        (∀ v, r.config.find? "retention.ms" = some v →
          t'.config.find? "retention.ms" = some v) ∧
        ∀ t, b.topics.find? r.topic = some t → t'.partitions = t.partitions ∧
          ∀ key, key ≠ "retention.ms" → t'.config.find? key = t.config.find? key) := by
  refine ⟨⟨?_, ?_⟩, ?_, ?_, ?_, ?_⟩
  · intro hok
    cases met_of_run_ok hb.truthful hok with
    | made hraces hmissing => exact Or.inl ⟨hmissing, hraces⟩
    | kept t ht hmeets => exact Or.inr ⟨t, ht, hmeets.partitions, hmeets.replicas⟩
  · rintro (⟨hmissing, hraces⟩ | ⟨t, ht, hpartitions, hreplicas⟩)
    · have hreliable : b.Reliable := ⟨hb, hraces⟩
      exact (run_ofRequirement_missing hreliable hmissing).1
    · rw [run_ofRequirement_present hb ht, TopicRequirement.validate_ok_iff_meets]
      exact ⟨hpartitions, hreplicas⟩
  · intro hmissing hraces
    exact run_ofRequirement_raced hb hraces hmissing
  · intro t ht hpinned hcount
    rw [run_ofRequirement_present hb ht, TopicRequirement.validate_miscounted hpinned hcount]
  · intro t before p after ht hcount hsplit hbefore hp
    rw [run_ofRequirement_present hb ht,
      TopicRequirement.validate_underReplicated hcount hsplit hbefore hp]
  · intro hok
    obtain ⟨t', ht', hmeets, hretention, hkept⟩ := (met_of_run_ok hb.truthful hok).topic
    refine ⟨t', ht', hmeets.partitions, hmeets.replicas, hretention, ?_⟩
    intro t ht
    exact ⟨(hkept t ht).partitions, (hkept t ht).config⟩

/-- A broker with one topic, whose second partition has fewer replicas than the others. -/
def unevenBroker : Broker where
  topics := .ofList [("t", ⟨[⟨0, [1, 2]⟩, ⟨1, [1]⟩, ⟨2, [2, 1]⟩], .ofList [("retention.ms", "1")]⟩)]

/-- Where two replicas are required of each partition, the second one is reported, and where one
is, the topic passes and is kept for longer. -/
theorem outcome_unevenBroker :
    ((ofRequirement { topic := "t", partitions := 3, replicas := 2 }).run unevenBroker).1 =
        .error (.invalidReplicationFactor "t" 1 2 1) ∧
      ∃ t', ((ofRequirement (.withAnyPartitions (.forInternal "t" 1))).run
          unevenBroker).2.topics.find? "t" = some t' ∧
        t'.config.find? "retention.ms" = some TopicRequirement.longestRetention := by
  have hsteady : unevenBroker.Steady := ⟨fun _ _ _ => rfl, fun _ _ => nofun⟩
  obtain ⟨-, -, -, huneven, -⟩ :=
    outcome_ofRequirement hsteady { topic := "t", partitions := 3, replicas := 2 }
  obtain ⟨-, -, -, -, hmet⟩ :=
    outcome_ofRequirement hsteady (.withAnyPartitions (.forInternal "t" 1))
  obtain ⟨t', ht', -, -, hretention, -⟩ := hmet rfl
  refine ⟨huneven _ [⟨0, [1, 2]⟩] ⟨1, [1]⟩ [⟨2, [2, 1]⟩] rfl (fun _ => rfl) rfl ?_ (by decide),
    t', ht', hretention _ rfl⟩
  decide

end Reconciliation

end StandingQuery
