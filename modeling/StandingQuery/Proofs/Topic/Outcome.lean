import StandingQuery.Proofs.Except
import StandingQuery.Proofs.Topic.Calls

/-!
# What comes of requirements on a reliable broker

On a reliable broker no call fails on its own account, no creation loses a race, and each
description shows the topic as it is. There the outcome of a requirement is known beforehand:
a topic that is missing is made, and one that exists is judged by its partitions. A broker stays
reliable whatever is asked of it. Where nothing is to be made, races do not matter, and a broker
that is `Steady` is enough.

* `Broker.Steady.serve_eq_act`, `Broker.Reliable.serve`: a reliable broker acts on each call,
  and stays reliable.
* `Reconciliation.run_ofRequirement_ok_iff`: when a requirement can be met.
* `TopicRequirement.sinkReplicas_eq_ok_iff`: which configurations give a number of replicas.
-/

namespace StandingQuery

/-! ## Topics as they are made -/

namespace Topic

theorem length_even (partitions replicas : Nat) (config : TopicConfig) :
    (even partitions replicas config).partitions.length = partitions := by
  simp [even, evenPartitions]

theorem replicationFactor_even {partitions replicas : Nat} {config : TopicConfig} {p : Partition}
    (h : p ∈ (even partitions replicas config).partitions) : p.replicationFactor = replicas := by
  obtain ⟨id, _, rfl⟩ := List.mem_map.1 h
  simp [Partition.replicationFactor]

end Topic

/-! ## Reliable brokers -/

/-- The descriptions that a broker gives are true. -/
def Broker.Truthful (b : Broker) : Prop :=
  ∀ name partitions, b.described.find? name = some partitions →
    ∃ t, b.topics.find? name = some t ∧ t.partitions = partitions

/-- A broker on which no call fails from now on, and descriptions are true. -/
structure Broker.Steady (b : Broker) : Prop where
  noFaults : ∀ n c, b.requests ≤ n → b.faults n c = none
  truthful : b.Truthful

/-- A steady broker on which creations win their races. -/
structure Broker.Reliable (b : Broker) : Prop extends b.Steady where
  noRaces : b.createRaces = false

namespace Broker

variable {b : Broker} {name : String} {t : Topic}

/-- Apart from the topics, a call changes only what is counted and logged. -/
theorem serve_settings (b : Broker) (c : BrokerCall) :
    (b.serve c).2.described = b.described ∧ (b.serve c).2.createRaces = b.createRaces ∧
      (b.serve c).2.faults = b.faults ∧ (b.serve c).2.requests = b.requests + 1 := by
  unfold serve
  split
  · exact ⟨rfl, rfl, rfl, rfl⟩
  cases c with
  | topicExists name => exact ⟨rfl, rfl, rfl, rfl⟩
  | describe name => cases h : b.topics.find? name <;> simp [act, h]
  | create name partitions replicas config =>
    cases h : b.createRaces || b.topics.contains name <;> simp [act, h]
  | addConfig name config => cases h : b.topics.find? name <;> simp [act, h]

theorem partitions_serve (b : Broker) (c : BrokerCall) (h : b.topics.find? name = some t) :
    ∃ t', (b.serve c).2.topics.find? name = some t' ∧ t'.partitions = t.partitions := by
  rcases b.serve_cases c with hsame | ⟨_, ⟨made, _, _, _, _, hnew, hmade⟩ |
    ⟨set, config, u, _, hu, hset⟩⟩
  · exact ⟨t, hsame ▸ h, rfl⟩
  · have hne : name ≠ made := by
      rintro rfl
      rw [hnew] at h
      cases h
    refine ⟨t, ?_, rfl⟩
    rw [hmade, OrderedMap.find?_insert, if_neg hne, h]
  · rw [hset, OrderedMap.find?_insert]
    split
    · rename_i hname
      subst hname
      obtain rfl : t = u := Option.some.inj (h.symm.trans hu)
      exact ⟨_, rfl, rfl⟩
    · exact ⟨t, h, rfl⟩

theorem Truthful.serve (h : b.Truthful) (c : BrokerCall) : (b.serve c).2.Truthful := by
  intro name partitions hfind
  rw [(b.serve_settings c).1] at hfind
  obtain ⟨t, ht, rfl⟩ := h name partitions hfind
  exact b.partitions_serve c ht

/-- A topic is described as it is. -/
theorem Truthful.described_eq (h : b.Truthful) (hname : b.topics.find? name = some t) :
    (b.described.find? name).getD t.partitions = t.partitions := by
  cases hd : b.described.find? name with
  | none => rfl
  | some partitions =>
    obtain ⟨u, hu, rfl⟩ := h name partitions hd
    obtain rfl : t = u := Option.some.inj (hname.symm.trans hu)
    rfl

namespace Steady

/-- A steady broker acts on each call. -/
theorem serve_eq_act (h : b.Steady) (c : BrokerCall) :
    b.serve c = { b with requests := b.requests + 1, log := b.log ++ [c] }.act c := by
  simp only [Broker.serve, h.noFaults b.requests c (Nat.le_refl _)]

theorem serve (h : b.Steady) (c : BrokerCall) : (b.serve c).2.Steady := by
  obtain ⟨_, _, hfaults, hrequests⟩ := b.serve_settings c
  refine ⟨?_, h.truthful.serve c⟩
  intro n call hn
  rw [hfaults]
  exact h.noFaults n call (by omega)

theorem serve_topicExists (h : b.Steady) (name : String) :
    (b.serve (.topicExists name)).1 = .ok (b.topics.contains name) := by
  rw [h.serve_eq_act]
  rfl

theorem serve_describe_missing (h : b.Steady) (hname : b.topics.find? name = none) :
    (b.serve (.describe name)).1 = .error (.topicNotFound name) := by
  simp [h.serve_eq_act, act, hname]

theorem serve_describe_present (h : b.Steady) (hname : b.topics.find? name = some t) :
    (b.serve (.describe name)).1 = .ok ⟨name, t.partitions⟩ := by
  simp [h.serve_eq_act, act, hname, h.truthful.described_eq hname]

theorem serve_addConfig (h : b.Steady) (hname : b.topics.find? name = some t)
    (config : TopicConfig) :
    ∃ changed : Bool, (b.serve (.addConfig name config)).1 = .ok changed := by
  refine ⟨(mergeConfig t.config config).2, ?_⟩
  simp [h.serve_eq_act, act, hname]

theorem serve_create_taken (h : b.Steady)
    (htaken : (b.createRaces || b.topics.contains name) = true) (partitions replicas : Nat)
    (config : TopicConfig) :
    (b.serve (.create name partitions replicas config)).1 = .error (.topicExists name) := by
  simp [h.serve_eq_act, act, htaken]

theorem serve_create_free (h : b.Steady)
    (hfree : (b.createRaces || b.topics.contains name) = false) (partitions replicas : Nat)
    (config : TopicConfig) :
    (b.serve (.create name partitions replicas config)).1 = .ok () ∧
      (b.serve (.create name partitions replicas config)).2.topics =
        b.topics.insert name (.even partitions replicas config) := by
  simp [h.serve_eq_act, act, hfree]

end Steady

namespace Reliable

theorem serve (h : b.Reliable) (c : BrokerCall) : (b.serve c).2.Reliable := by
  refine ⟨h.toSteady.serve c, ?_⟩
  rw [(b.serve_settings c).2.1, h.noRaces]

theorem run {α : Type} (h : b.Reliable) (p : BrokerProgram α) : (p.run b).2.Reliable := by
  induction p generalizing b with
  | done x => exact h
  | ask c next ih => exact ih _ (h.serve c)

theorem serve_create (h : b.Reliable) (hname : b.topics.find? name = none)
    (partitions replicas : Nat) (config : TopicConfig) :
    (b.serve (.create name partitions replicas config)).1 = .ok () ∧
      (b.serve (.create name partitions replicas config)).2.topics =
        b.topics.insert name (.even partitions replicas config) := by
  apply h.toSteady.serve_create_free
  simp [h.noRaces, OrderedMap.contains, hname]

end Reliable

end Broker

/-! ## Meeting a requirement -/

namespace Reconciliation

variable {b : Broker} {r : TopicRequirement} {t : Topic}

theorem run_ofRequirement_missing (hb : b.Reliable) (h : b.topics.find? r.topic = none) :
    ((ofRequirement r).run b).1 = .ok () ∧
      ((ofRequirement r).run b).2.topics =
        b.topics.insert r.topic (.even r.partitions r.replicas r.config) := by
  have hexists : (b.serve (.topicExists r.topic)).1 = .ok false := by
    rw [hb.toSteady.serve_topicExists]
    simp [OrderedMap.contains, h]
  rw [ofRequirement, BrokerProgram.run, hexists]
  have hreliable := hb.serve (.topicExists r.topic)
  have htopics := b.topics_serve_topicExists r.topic
  generalize (b.serve (.topicExists r.topic)).2 = b' at hreliable htopics ⊢
  obtain ⟨hmade, htopics'⟩ :=
    hreliable.serve_create (htopics ▸ h) r.partitions r.replicas r.config
  rw [htopics] at htopics'
  simp only [create, BrokerProgram.run, hmade]
  exact ⟨trivial, htopics'⟩

/-- A topic that exists is judged by its partitions. -/
theorem run_ofRequirement_present (hb : b.Steady) (h : b.topics.find? r.topic = some t) :
    ((ofRequirement r).run b).1 = r.validate ⟨r.topic, t.partitions⟩ := by
  have hexists : (b.serve (.topicExists r.topic)).1 = .ok true := by
    rw [hb.serve_topicExists]
    simp [OrderedMap.contains, h]
  rw [ofRequirement, BrokerProgram.run, hexists]
  have hsteady := hb.serve (.topicExists r.topic)
  have htopics := b.topics_serve_topicExists r.topic
  generalize (b.serve (.topicExists r.topic)).2 = b' at hsteady htopics ⊢
  -- Neither question has changed a topic, so the one that is judged is still there.
  have hdescribe := hsteady.serve_describe_present (htopics ▸ h)
  have hsteady' := hsteady.serve (.describe r.topic)
  have htopics' := b'.topics_serve_describe r.topic
  rw [htopics] at htopics'
  simp only [update, BrokerProgram.run, hdescribe]
  generalize (b'.serve (.describe r.topic)).2 = b'' at hsteady' htopics' ⊢
  cases hvalid : r.validate ⟨r.topic, t.partitions⟩ with
  | error e => rfl
  | ok _ =>
    simp only [reapply]
    split
    · rfl
    · obtain ⟨changed, hchanged⟩ := hsteady'.serve_addConfig (htopics' ▸ h) r.reapplied
      simp only [BrokerProgram.run, hchanged]

/-- A requirement can be met if the topic is missing or passes. -/
theorem run_ofRequirement_ok_iff (hb : b.Reliable) :
    ((ofRequirement r).run b).1 = .ok () ↔ ∀ t, b.topics.find? r.topic = some t →
      (r.exactPartitions = true → t.partitions.length = r.partitions) ∧
        ∀ p ∈ t.partitions, r.replicas ≤ p.replicationFactor := by
  cases h : b.topics.find? r.topic with
  | none => simp [(run_ofRequirement_missing hb h).1]
  | some t =>
    rw [run_ofRequirement_present hb.toSteady h, TopicRequirement.validate_ok_iff]
    constructor
    · rintro hvalid _ ⟨⟩
      exact hvalid
    · intro hall
      exact hall t rfl

end Reconciliation

/-! ## Numbers of replicas -/

namespace TopicRequirement

theorem replicas?_eq_ok_iff {configs : ConfigSnapshot} {key : String} {r : Option Nat} :
    replicas? configs key = .ok r ↔
      configs.value? key = none ∧ r = none ∨
        ∃ text n, configs.value? key = some text ∧ ConfigValue.readCount text = .ok n ∧ 1 ≤ n ∧
          r = some n := by
  unfold replicas? ConfigSnapshot.parsed?
  cases hvalue : configs.value? key with
  | none => simp [eq_comm]
  | some text =>
    cases hread : ConfigValue.readCount text with
    | error fault => simp [hread]
    | ok n =>
      cases n with
      | zero => simp [hread]
      | succ n => simp [hread, eq_comm]

theorem sinkReplicas_eq_ok_iff {configs : ConfigSnapshot} {r : Nat} :
    sinkReplicas configs = .ok r ↔
      configs.value? ConfigKey.sinkReplicas = none ∧ r = 1 ∨
        ∃ text, configs.value? ConfigKey.sinkReplicas = some text ∧
          ConfigValue.readCount text = .ok r ∧ 1 ≤ r := by
  rw [sinkReplicas, map_eq_ok]
  simp only [replicas?_eq_ok_iff]
  constructor
  · rintro ⟨_, ⟨hnone, rfl⟩ | ⟨text, n, htext, hread, hpos, rfl⟩, rfl⟩
    · exact Or.inl ⟨hnone, rfl⟩
    · exact Or.inr ⟨text, htext, hread, hpos⟩
  · rintro (⟨hnone, rfl⟩ | ⟨text, htext, hread, hpos⟩)
    · exact ⟨none, Or.inl ⟨hnone, rfl⟩, rfl⟩
    · exact ⟨some r, Or.inr ⟨text, r, htext, hread, hpos, rfl⟩, rfl⟩

end TopicRequirement

end StandingQuery
