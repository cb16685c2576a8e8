import StandingQuery.Proofs.Text.Numerals
import StandingQuery.Proofs.Topic.Outcome
import StandingQuery.Proofs.Topic.Upkeep

/-!
# Where numbers of replicas come from

The number of replicas of a new topic is read from the configuration, under one key or under two of
which the first that has a value decides. A text that is not a number of 16 bits is refused, and so
is zero. Since this is settled before the first call, a topic is only ever made with a number that
the configuration selects.

* `TopicRequirement.internalReplicas_eq_ok_iff`, `TopicRequirement.sinkReplicas_iff_selects`: what
  is read is what the configuration selects.
* `Reconciliation.guarded_ensureInternal`, `Reconciliation.guarded_ensureTopic`: topics are made
  with the number that was selected, and without one no call is made.
-/

namespace StandingQuery

/-! ## Selected numbers -/

/-- A text denotes a number of replicas: it is one or more digits, after a plus sign perhaps, and
their value is from 1 to 65535. -/
def ConfigValue.DenotesReplicas (text : String) (r : Nat) : Prop :=
  ∃ digits : List Char, (text.toList = digits ∨ text.toList = '+' :: digits) ∧ digits ≠ [] ∧
    (∀ c ∈ digits, c.isDigit = true) ∧ Nat.ofDigitChars 10 digits 0 = r ∧ 1 ≤ r ∧ r ≤ 65535

/-- A configuration selects a number of replicas by some keys: the first of them that has a value
decides, and if none has, the number is one. -/
def ConfigSnapshot.Selects (configs : ConfigSnapshot) : List String → Nat → Prop
  | [], r => r = 1
  | key :: keys, r =>
    (∃ text, configs.value? key = some text ∧ ConfigValue.DenotesReplicas text r) ∨
      configs.value? key = none ∧ configs.Selects keys r

theorem ConfigValue.denotesReplicas_iff {text : String} {r : Nat} :
    DenotesReplicas text r ↔ readCount text = .ok r ∧ 1 ≤ r := by
  rw [readCount, mapError_eq_ok, Text.Numeral.unsigned_eq_ok_iff]
  constructor
  · rintro ⟨digits, htext, hne, hdigits, hvalue, hpos, hle⟩
    exact ⟨⟨digits, htext, hne, hdigits, hvalue, hle⟩, hpos⟩
  · rintro ⟨⟨digits, htext, hne, hdigits, hvalue, hle⟩, hpos⟩
    exact ⟨digits, htext, hne, hdigits, hvalue, hpos, hle⟩

/-- What is selected can be used. -/
theorem ConfigSnapshot.Selects.usable {configs : ConfigSnapshot} {keys : List String} {r : Nat}
    (h : configs.Selects keys r) : 1 ≤ r ∧ r ≤ 65535 := by
  induction keys with
  | nil =>
    obtain rfl : r = 1 := h
    decide
  | cons key keys ih =>
    rcases h with ⟨_, _, _, _, _, _, _, husable⟩ | ⟨_, hlater⟩
    · exact husable
    · exact ih hlater

namespace TopicRequirement

variable {configs : ConfigSnapshot} {key : String} {keys : List String} {r : Nat}

/-- A key that has a value decides, and later keys are only asked if it has none. -/
theorem selects_cons_iff :
    configs.Selects (key :: keys) r ↔
      replicas? configs key = .ok (some r) ∨
        replicas? configs key = .ok none ∧ configs.Selects keys r := by
  simp only [ConfigSnapshot.Selects, ConfigValue.denotesReplicas_iff, replicas?_eq_ok_iff,
    Option.some.injEq, reduceCtorEq, and_false, exists_false, or_false, and_true, false_or]
  constructor
  · rintro (⟨text, htext, hread, hpos⟩ | hlater)
    · exact Or.inl ⟨text, r, htext, hread, hpos, rfl⟩
    · exact Or.inr hlater
  · rintro (⟨text, _, htext, hread, hpos, rfl⟩ | hlater)
    · exact Or.inl ⟨text, htext, hread, hpos⟩
    · exact Or.inr hlater

theorem sinkReplicas_iff_selects :
    sinkReplicas configs = .ok r ↔ configs.Selects [ConfigKey.sinkReplicas] r := by
  rw [selects_cons_iff, sinkReplicas, map_eq_ok]
  constructor
  · rintro ⟨_ | n, hread, rfl⟩
    · exact Or.inr ⟨hread, rfl⟩
    · exact Or.inl hread
  · rintro (hread | ⟨hread, rfl⟩)
    · exact ⟨some r, hread, rfl⟩
    · exact ⟨none, hread, rfl⟩

theorem internalReplicas_eq_ok_iff :
    internalReplicas configs = .ok r ↔
      configs.Selects [ConfigKey.sinkReplicas, ConfigKey.internalReplicas] r := by
  rw [selects_cons_iff, selects_cons_iff, internalReplicas, bind_eq_ok]
  constructor
  · rintro ⟨_ | n, hsink, hrest⟩
    · obtain ⟨_ | n, hinternal, hdefault⟩ := bind_eq_ok.1 hrest
      · exact Or.inr ⟨hsink, Or.inr ⟨hinternal, (pure_eq_ok.1 hdefault).symm⟩⟩
      · obtain rfl := pure_eq_ok.1 hdefault
        exact Or.inr ⟨hsink, Or.inl hinternal⟩
    · obtain rfl := pure_eq_ok.1 hrest
      exact Or.inl hsink
  · rintro (hsink | ⟨hsink, hinternal | ⟨hinternal, rfl⟩⟩)
    · exact ⟨some r, hsink, rfl⟩
    · exact ⟨none, hsink, bind_eq_ok.2 ⟨some r, hinternal, rfl⟩⟩
    · exact ⟨none, hsink, bind_eq_ok.2 ⟨none, hinternal, rfl⟩⟩

/-! ## What is refused -/

variable {e : TopicError}

theorem replicas?_error (h : replicas? configs key = .error e) : ∃ fault, e = .config fault := by
  unfold replicas? at h
  split at h
  · cases h
    exact ⟨_, rfl⟩
  · cases h
    exact ⟨_, rfl⟩
  · cases h

theorem sinkReplicas_error (h : sinkReplicas configs = .error e) : ∃ fault, e = .config fault :=
  replicas?_error (map_eq_error.1 h)

theorem internalReplicas_error (h : internalReplicas configs = .error e) :
    ∃ fault, e = .config fault := by
  rcases bind_eq_error.1 h with hsink | ⟨_ | n, _, hrest⟩
  · exact replicas?_error hsink
  · rcases bind_eq_error.1 hrest with hinternal | ⟨_, _, hdefault⟩
    · exact replicas?_error hinternal
    · cases hdefault
  · cases hrest

theorem forSink_error {q : QueryPlan} {partitions : Nat}
    (h : forSink q configs partitions = .error e) : ∃ fault, e = .config fault := by
  unfold forSink at h
  split at h
  · cases h
    exact ⟨_, rfl⟩
  · exact sinkReplicas_error (map_eq_error.1 h)

end TopicRequirement

/-! ## Topics that are made -/

/-- If a call asks for a new topic, then with a number of replicas that satisfies `P`, and that is
from 1 to 65535. -/
def BrokerCall.CreatesWith (P : Nat → Prop) : BrokerCall → Prop
  | create _ _ replicas _ => P replicas ∧ 1 ≤ replicas ∧ replicas ≤ 65535
  | _ => True

namespace Reconciliation

variable {P : Nat → Prop}

/-- A program makes topics only with a number of replicas that satisfies `P`, and that can be used.
If there is none, it makes no call, and the configuration is to blame. -/
structure Guarded (P : Nat → Prop) (p : Reconciliation) : Prop where
  calls : p.Calls (BrokerCall.CreatesWith P)
  refused : (¬ ∃ r, P r) → ∃ fault, p = .done (.error (.config fault))

theorem createsWith_ofRequirement {r : TopicRequirement} (h : P r.replicas)
    (husable : 1 ≤ r.replicas ∧ r.replicas ≤ 65535) :
    (ofRequirement r).Calls (BrokerCall.CreatesWith P) := by
  apply calls_ofRequirement.mono
  intro c hc
  cases c with
  | topicExists _ => trivial
  | describe _ => trivial
  | addConfig _ _ => trivial
  | create _ _ _ _ =>
    obtain ⟨-, -, rfl, -⟩ := TopicRequirement.create_mem_calls.1 hc
    exact ⟨h, husable⟩

theorem guarded_ensureInternal (topic : String) (configs : ConfigSnapshot) :
    (ensureInternal topic configs).Guarded
      (configs.Selects [ConfigKey.sinkReplicas, ConfigKey.internalReplicas]) := by
  unfold ensureInternal
  cases hread : TopicRequirement.internalReplicas configs with
  | error e =>
    obtain ⟨fault, rfl⟩ := TopicRequirement.internalReplicas_error hread
    exact ⟨trivial, fun _ => ⟨fault, rfl⟩⟩
  | ok r =>
    have hselected := TopicRequirement.internalReplicas_eq_ok_iff.1 hread
    refine ⟨createsWith_ofRequirement hselected hselected.usable, ?_⟩
    intro hnone
    exact absurd ⟨r, hselected⟩ hnone

/-- Where the number of replicas is given, it is zero that is refused. -/
theorem guarded_ensureTopic (topic : String) (replicationFactor : UInt16) (config : TopicConfig) :
    (ensureTopic topic replicationFactor.toNat config).Guarded
      (fun r => r = replicationFactor.toNat ∧ 1 ≤ r) := by
  have hle : replicationFactor.toNat ≤ 65535 := Nat.le_of_lt_succ replicationFactor.toNat_lt
  unfold ensureTopic
  split
  · exact ⟨trivial, fun _ => ⟨_, rfl⟩⟩
  · rename_i hne
    have hpos : 1 ≤ replicationFactor.toNat := Nat.one_le_iff_ne_zero.2 hne
    refine ⟨createsWith_ofRequirement ⟨rfl, hpos⟩ ⟨hpos, hle⟩, ?_⟩
    intro hnone
    exact absurd ⟨_, rfl, hpos⟩ hnone

end Reconciliation

end StandingQuery
