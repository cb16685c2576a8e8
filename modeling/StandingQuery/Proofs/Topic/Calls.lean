import StandingQuery.Topic.Reconcile

/-!
# What calls do to the topics of a broker

No call removes a topic or changes its partitions. A call changes at most the topic it names:
it makes it, or sets some of its settings. What holds of each call that a program may make,
whatever the answers are, holds of the whole run, since a run is nothing but calls.

* `Broker.serve_cases`: what one call can do to the topics.
* `Broker.tended_serve`: what it does if it takes care of one topic.
* `Broker.topics_serve_error`: a call that fails changes no topic.
* `BrokerProgram.run_preserves`: from each call to the whole run.
* `BrokerProgram.tended_run`: what the run of a program does to the topics.
-/

namespace StandingQuery

/-! ## Settings -/

namespace Broker

/-- Settings with one more added, and whether this or an earlier one has changed them. -/
def addSetting (merged : TopicConfig × Bool) (setting : String × String) : TopicConfig × Bool :=
  if merged.1.find? setting.1 = some setting.2 then merged
  else (merged.1.insert setting.1 setting.2, true)

theorem mergeConfig_eq (config added : TopicConfig) :
    mergeConfig config added = added.entries.foldl addSetting (config, false) := rfl

theorem find?_addSetting (merged : TopicConfig × Bool) (setting : String × String)
    (key : String) :
    (addSetting merged setting).1.find? key =
      if key = setting.1 then some setting.2 else merged.1.find? key := by
  unfold addSetting
  split
  · rename_i h
    split
    · rename_i hkey
      rw [hkey, h]
    · rfl
  · exact OrderedMap.find?_insert _ _ _ _

theorem find?_foldl_addSetting {es : List (String × String)} (h : Entries.Ordered es)
    (merged : TopicConfig × Bool) (key : String) :
    (es.foldl addSetting merged).1.find? key = (es.lookup key).or (merged.1.find? key) := by
  induction es generalizing merged with
  | nil => rfl
  | cons e es ih =>
    obtain ⟨a, v⟩ := e
    obtain ⟨ha, hes⟩ := List.pairwise_cons.1 h
    rw [List.foldl_cons, ih hes, find?_addSetting]
    -- The key of the first entry does not come again, so its value stands.
    by_cases hkey : key = a
    · rw [hkey, Entries.lookup_of_forall_lt ha, List.lookup_cons_self, if_pos rfl]
      rfl
    · rw [List.lookup_cons, beq_eq_false_iff_ne.2 hkey, if_neg hkey]

/-- Settings that are added replace those with the same keys, and leave the others. -/
theorem find?_mergeConfig (config added : TopicConfig) (key : String) :
    (mergeConfig config added).1.find? key = (added.find? key).or (config.find? key) := by
  rw [mergeConfig_eq]
  exact find?_foldl_addSetting added.ordered (config, false) key

/-! ## What a call can do -/

/-- A call leaves the topics as they are, or it succeeds and makes a topic that was missing or
sets some of the settings of a topic that is there. -/
theorem act_cases (b : Broker) (c : BrokerCall) :
    (b.act c).2.topics = b.topics ∨
      (∀ e, (b.act c).1 ≠ .error e) ∧
        ((∃ name partitions replicas config, c = .create name partitions replicas config ∧
            b.topics.find? name = none ∧
            (b.act c).2.topics = b.topics.insert name (.even partitions replicas config)) ∨
          ∃ name config t, c = .addConfig name config ∧ b.topics.find? name = some t ∧
            (b.act c).2.topics =
              b.topics.insert name { t with config := (mergeConfig t.config config).1 }) := by
  cases c with
  | topicExists name => exact Or.inl rfl
  | describe name =>
    left
    cases h : b.topics.find? name <;> simp [act, h]
  | create name partitions replicas config =>
    cases h : b.createRaces || b.topics.contains name with
    | true =>
      left
      simp [act, h]
    | false =>
      have hnew : b.topics.find? name = none := by
        simp only [Bool.or_eq_false_iff] at h
        simpa [OrderedMap.contains] using h.2
      right
      exact ⟨by simp [act, h], Or.inl ⟨_, _, _, _, rfl, hnew, by simp [act, h]⟩⟩
  | addConfig name config =>
    cases h : b.topics.find? name with
    | none =>
      left
      simp [act, h]
    | some t =>
      right
      exact ⟨by simp [act, h], Or.inr ⟨_, _, t, rfl, h, by simp [act, h]⟩⟩

theorem serve_cases (b : Broker) (c : BrokerCall) :
    (b.serve c).2.topics = b.topics ∨
      (∀ e, (b.serve c).1 ≠ .error e) ∧
        ((∃ name partitions replicas config, c = .create name partitions replicas config ∧
            b.topics.find? name = none ∧
            (b.serve c).2.topics = b.topics.insert name (.even partitions replicas config)) ∨
          ∃ name config t, c = .addConfig name config ∧ b.topics.find? name = some t ∧
            (b.serve c).2.topics =
              b.topics.insert name { t with config := (mergeConfig t.config config).1 }) := by
  unfold serve
  split
  · exact Or.inl rfl
  · exact act_cases { b with requests := b.requests + 1, log := b.log ++ [c] } c

/-- A call that fails changes no topic. -/
theorem topics_serve_error {b : Broker} {c : BrokerCall} {e : BrokerError}
    (h : (b.serve c).1 = .error e) : (b.serve c).2.topics = b.topics := by
  rcases b.serve_cases c with hsame | ⟨hok, _⟩
  · exact hsame
  · exact absurd h (hok e)

theorem topics_serve_describe (b : Broker) (name : String) :
    (b.serve (.describe name)).2.topics = b.topics := by
  rcases b.serve_cases (.describe name) with hsame | ⟨_, h⟩
  · exact hsame
  · rcases h with ⟨_, _, _, _, hc, _⟩ | ⟨_, _, _, hc, _⟩ <;> cases hc

end Broker

/-! ## Taking care of one topic -/

/-- The same topic, but perhaps with other values for the settings that may be set. -/
structure Topic.AgreesBut (settable : String → Prop) (before after : Topic) : Prop where
  partitions : after.partitions = before.partitions
  config : ∀ key, ¬ settable key → after.config.find? key = before.config.find? key

namespace Topic.AgreesBut

variable {settable : String → Prop}

theorem refl (t : Topic) : t.AgreesBut settable t := ⟨rfl, fun _ _ => rfl⟩

theorem trans {t u v : Topic} (h : t.AgreesBut settable u) (h' : u.AgreesBut settable v) :
    t.AgreesBut settable v :=
  ⟨h'.partitions.trans h.partitions,
    fun key hkey => (h'.config key hkey).trans (h.config key hkey)⟩

theorem merge {t : Topic} {added : TopicConfig}
    (h : ∀ key, ¬ settable key → added.find? key = none) :
    t.AgreesBut settable { t with config := (Broker.mergeConfig t.config added).1 } := by
  refine ⟨rfl, ?_⟩
  intro key hkey
  rw [Broker.find?_mergeConfig, h key hkey]
  rfl

/-- Where no setting may be set, it is the same topic. -/
theorem eq {t u : Topic} (h : t.AgreesBut (fun _ => False) u) : u = t := by
  obtain ⟨partitions, config⟩ := t
  obtain ⟨partitions', config'⟩ := u
  obtain rfl : partitions' = partitions := h.partitions
  obtain rfl : config' = config := OrderedMap.ext_find? fun key => h.config key not_false
  rfl

end Topic.AgreesBut

/-- Between two brokers, nothing has happened to other topics than one, and that one has at
most been made, or has other values for the settings that may be set. -/
structure Broker.Tended (topic : String) (settable : String → Prop) (b b' : Broker) : Prop where
  others : ∀ name, name ≠ topic → b'.topics.find? name = b.topics.find? name
  kept : ∀ t, b.topics.find? topic = some t →
    ∃ t', b'.topics.find? topic = some t' ∧ t.AgreesBut settable t'

/-- A call that does nothing but take care of one topic. -/
def BrokerCall.Tends (topic : String) (settable : String → Prop) : BrokerCall → Prop
  | topicExists _ => True
  | describe _ => True
  | create name _ _ _ => name = topic
  | addConfig name config => name = topic ∧ ∀ key, ¬ settable key → config.find? key = none

namespace Broker

variable {topic : String} {settable : String → Prop} {b b' b'' : Broker}

theorem Tended.of_topics (h : b'.topics = b.topics) : Tended topic settable b b' := by
  constructor
  · intro name _
    rw [h]
  · intro t ht
    exact ⟨t, h ▸ ht, .refl t⟩

theorem Tended.trans (h : Tended topic settable b b') (h' : Tended topic settable b' b'') :
    Tended topic settable b b'' := by
  constructor
  · intro name hname
    rw [h'.others name hname, h.others name hname]
  · intro t ht
    obtain ⟨u, hu, htu⟩ := h.kept t ht
    obtain ⟨v, hv, huv⟩ := h'.kept u hu
    exact ⟨v, hv, htu.trans huv⟩

theorem Tended.of_insert {t' : Topic} (h : b'.topics = b.topics.insert topic t')
    (hold : ∀ t, b.topics.find? topic = some t → t.AgreesBut settable t') :
    Tended topic settable b b' := by
  constructor
  · intro name hname
    rw [h, OrderedMap.find?_insert, if_neg hname]
  · intro t ht
    refine ⟨t', ?_, hold t ht⟩
    rw [h, OrderedMap.find?_insert, if_pos rfl]

theorem tended_serve (b : Broker) {c : BrokerCall} (h : c.Tends topic settable) :
    Tended topic settable b (b.serve c).2 := by
  rcases b.serve_cases c with hsame | ⟨_, ⟨name, _, _, _, rfl, hnew, hmade⟩ |
    ⟨name, config, t, rfl, ht, hset⟩⟩
  · exact .of_topics hsame
  · obtain rfl : name = topic := h
    apply Tended.of_insert hmade
    intro t ht
    rw [hnew] at ht
    cases ht
  · obtain ⟨rfl, hconfig⟩ := h
    apply Tended.of_insert hset
    intro u hu
    obtain rfl : t = u := Option.some.inj (ht.symm.trans hu)
    exact .merge hconfig

end Broker

/-! ## Programs -/

namespace BrokerProgram

variable {α β : Type} {P : BrokerCall → Prop}

/-- Every call that a program may make, whatever the answers are, satisfies `P`. -/
def Calls (P : BrokerCall → Prop) : BrokerProgram α → Prop
  | done _ => True
  | ask c next => P c ∧ ∀ reply, (next reply).Calls P

theorem Calls.mono {Q : BrokerCall → Prop} {p : BrokerProgram α} (h : p.Calls P)
    (hPQ : ∀ c, P c → Q c) : p.Calls Q := by
  induction p with
  | done x => trivial
  | ask c next ih => exact ⟨hPQ c h.1, fun reply => ih reply (h.2 reply)⟩

theorem calls_bind {p : BrokerProgram α} {f : α → BrokerProgram β} (hp : p.Calls P)
    (hf : ∀ x, (f x).Calls P) : (p.bind f).Calls P := by
  induction p with
  | done x => exact hf x
  | ask c next ih => exact ⟨hp.1, fun reply => ih reply (hp.2 reply)⟩

/-- A relation between the broker before and after each call holds between the broker before and
after a run, if it is reflexive and transitive. -/
theorem run_preserves {R : Broker → Broker → Prop} (refl : ∀ b, R b b)
    (trans : ∀ {b b' b''}, R b b' → R b' b'' → R b b'')
    (step : ∀ b c, P c → R b (b.serve c).2) {p : BrokerProgram α} (h : p.Calls P)
    (b : Broker) : R b (p.run b).2 := by
  induction p generalizing b with
  | done x => exact refl b
  | ask c next ih => exact trans (step b c h.1) (ih _ (h.2 _) _)

/-- A program whose calls take care of one topic does nothing to the others. -/
theorem tended_run {topic : String} {settable : String → Prop} {p : BrokerProgram α}
    (h : p.Calls (BrokerCall.Tends topic settable)) (b : Broker) :
    Broker.Tended topic settable b (p.run b).2 :=
  run_preserves (fun _ => .of_topics rfl) .trans (fun b _ hc => b.tended_serve hc) h b

end BrokerProgram

end StandingQuery
