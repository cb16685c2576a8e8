import StandingQuery.Proofs.Topic.Acceptance

/-!
# Several callers for one topic

Programs that make calls to one broker may be interleaved in any way, call by call. When several
programs meet one requirement in this way and the topic is missing at first, more than one of
them may find it missing, but it is made only once, and the others lose the race. Whoever finds
the topic finds it as it is required, so nothing but a lost race is ever reported.

The invariant tells at which point each program can be: a program describes the topic, applies
its settings again, or has met the requirement, only where the topic is there.

* `Reconciliation.Underway.advance`: one call leads from one of these points to another.
* `Callers.Racing.after`: the invariant holds after any schedule.
* `Callers.race_ofRequirement`: what callers that race for a topic come to.
-/

namespace StandingQuery

/-! ## Interleaved programs -/

/-- A call, with the answer to it. -/
structure BrokerEvent where
  call : BrokerCall
  reply : Except BrokerError call.Reply

/-- Whether a topic has been made. -/
def BrokerEvent.isMaking (e : BrokerEvent) : Bool := e.call.isCreate && e.reply.isOk

namespace BrokerProgram

variable {α : Type}

/-- The next call of a program, with the answer to it. -/
def event? : BrokerProgram α → Broker → Option BrokerEvent
  | done _, _ => none
  | ask c _, b => some ⟨c, (b.serve c).1⟩

theorem createRaces_advance (p : BrokerProgram α) (b : Broker) :
    (p.advance b).2.createRaces = b.createRaces := by
  cases p with
  | done x => rfl
  | ask c next => exact (b.serve_settings c).2.1

end BrokerProgram

/-- Programs that make calls to one broker, each at its own pace. -/
structure Callers (α : Type) where
  broker : Broker
  programs : List (BrokerProgram α)

namespace Callers

variable {α : Type}

/-- One of the programs makes its next call, unless it is done. -/
def step (c : Callers α) (i : Nat) : Callers α :=
  match c.programs[i]? with
  | none => c
  | some p =>
    let (p, b) := p.advance c.broker
    ⟨b, c.programs.set i p⟩

/-- The next call of one of the programs, with the answer to it. -/
def event? (c : Callers α) (i : Nat) : Option BrokerEvent :=
  c.programs[i]?.bind fun p => p.event? c.broker

/-- The programs, and the broker, after the next calls of those that a schedule lists. -/
def after (c : Callers α) (schedule : List Nat) : Callers α := schedule.foldl step c

/-- The calls that are made under a schedule, with the answers to them. -/
def events (c : Callers α) : List Nat → List BrokerEvent
  | [] => []
  | i :: schedule => (c.event? i).toList ++ (c.step i).events schedule

/-- Several programs that meet the same requirement. -/
def ofRequirement (b : Broker) (r : TopicRequirement) (callers : Nat) :
    Callers (Except TopicError Unit) :=
  ⟨b, List.replicate callers (Reconciliation.ofRequirement r)⟩

theorem after_append (c : Callers α) (earlier later : List Nat) :
    c.after (earlier ++ later) = (c.after earlier).after later :=
  List.foldl_append

/-- What holds after each step if it held before holds after any schedule. -/
theorem after_preserves {I : Callers α → Prop} (step : ∀ c i, I c → I (c.step i))
    {c : Callers α} (h : I c) (schedule : List Nat) : I (c.after schedule) := by
  induction schedule generalizing c with
  | nil => exact h
  | cons i schedule ih => exact ih (step c i h)

theorem createRaces_step (c : Callers α) (i : Nat) :
    (c.step i).broker.createRaces = c.broker.createRaces := by
  unfold step
  split
  · rfl
  · exact BrokerProgram.createRaces_advance _ _

theorem createRaces_after (c : Callers α) (schedule : List Nat) :
    (c.after schedule).broker.createRaces = c.broker.createRaces :=
  after_preserves (I := fun c' => c'.broker.createRaces = c.broker.createRaces)
    (fun c' i h => (c'.createRaces_step i).trans h) rfl schedule

end Callers

/-! ## The topic -/

/-- The topic of a requirement is there, as it is made for it. -/
def Broker.Has (b : Broker) (r : TopicRequirement) : Prop :=
  b.topics.find? r.topic = some (.even r.partitions r.replicas r.config)

/-- A steady broker on which the topic of a requirement is missing, or is there as it is made for
it. -/
structure Broker.Awaits (b : Broker) (r : TopicRequirement) : Prop where
  steady : b.Steady
  topic : b.topics.find? r.topic = none ∨ b.Has r

namespace Broker

variable {b : Broker} {r : TopicRequirement} {c : BrokerCall}

/-- The settings that are applied again are those that the topic has. -/
theorem mergeConfig_reapplied (r : TopicRequirement) :
    (mergeConfig r.config r.reapplied).1 = r.config := by
  apply OrderedMap.ext_find?
  intro key
  rw [find?_mergeConfig, r.find?_reapplied]
  split
  · exact Option.or_self
  · rfl

theorem Has.contains (h : b.Has r) : b.topics.contains r.topic = true :=
  OrderedMap.contains_iff.2 ⟨_, h⟩

/-- A topic that was made for a requirement stays as it is, whoever meets the requirement. -/
theorem Has.serve (h : b.Has r) (hc : c ∈ r.calls) : (b.serve c).2.Has r := by
  unfold Has at h ⊢
  rcases b.serve_cases c with hsame | ⟨_, ⟨name, _, _, _, rfl, hnew, _⟩ |
    ⟨name, config, t, rfl, ht, hset⟩⟩
  · rw [hsame, h]
  · obtain ⟨rfl, -⟩ := TopicRequirement.create_mem_calls.1 hc
    rw [h] at hnew
    cases hnew
  · obtain ⟨rfl, rfl⟩ := TopicRequirement.addConfig_mem_calls.1 hc
    obtain rfl := Option.some.inj (ht.symm.trans h)
    rw [hset, OrderedMap.find?_insert, if_pos rfl]
    simp only [Topic.even, mergeConfig_reapplied]

theorem Awaits.serve (h : b.Awaits r) (hc : c ∈ r.calls) : (b.serve c).2.Awaits r := by
  refine ⟨h.steady.serve c, ?_⟩
  rcases h.topic with hmissing | hthere
  · rcases b.serve_cases c with hsame | ⟨_, ⟨name, partitions, replicas, config, rfl, _, hmade⟩ |
      ⟨name, config, t, rfl, ht, _⟩⟩
    · exact Or.inl (hsame ▸ hmissing)
    · obtain ⟨rfl, rfl, rfl, rfl⟩ := TopicRequirement.create_mem_calls.1 hc
      right
      rw [Has, hmade, OrderedMap.find?_insert, if_pos rfl]
    · obtain ⟨rfl, -⟩ := TopicRequirement.addConfig_mem_calls.1 hc
      rw [hmissing] at ht
      cases ht
  · exact Or.inr (hthere.serve hc)

theorem Awaits.has_of_contains (h : b.Awaits r) (hthere : b.topics.contains r.topic = true) :
    b.Has r := by
  rcases h.topic with hmissing | hhas
  · obtain ⟨t, ht⟩ := OrderedMap.contains_iff.1 hthere
    rw [hmissing] at ht
    cases ht
  · exact hhas

end Broker

/-! ## Where a program can be -/

namespace Reconciliation

variable {b b' : Broker} {r : TopicRequirement} {p : Reconciliation}

/-- Where a program that meets a requirement can be: whoever describes the topic has found it,
and whoever loses a race has lost it to someone. -/
inductive Underway (r : TopicRequirement) (b : Broker) : Reconciliation → Prop
  | start : Underway r b (ofRequirement r)
  | missing : Underway r b (create r)
  | present (h : b.Has r) : Underway r b (update r)
  | checked (h : b.Has r) : Underway r b (reapply r)
  | met (h : b.Has r) : Underway r b (.done (.ok ()))
  | lost (h : b.createRaces = true ∨ b.Has r) : Underway r b (.done (.error (.topicExists r.topic)))

namespace Underway

theorem calls (h : Underway r b p) : p.Calls (· ∈ r.calls) := by
  cases h with
  | start => exact calls_ofRequirement
  | missing => exact calls_create
  | present => exact calls_update
  | checked => exact calls_reapply
  | met => trivial
  | lost => trivial

/-- A program stays where it is while others make calls. -/
theorem mono (h : Underway r b p) (hraces : b'.createRaces = b.createRaces)
    (hhas : b.Has r → b'.Has r) : Underway r b' p := by
  cases h with
  | start => exact .start
  | missing => exact .missing
  | present h => exact .present (hhas h)
  | checked h => exact .checked (hhas h)
  | met h => exact .met (hhas h)
  | lost h => exact .lost (h.imp (hraces ▸ ·) hhas)

theorem advance_start (hb : b.Awaits r) :
    Underway r ((ofRequirement r).advance b).2 ((ofRequirement r).advance b).1 := by
  simp only [ofRequirement, BrokerProgram.advance, hb.steady.serve_topicExists]
  cases hthere : b.topics.contains r.topic with
  | false => exact .missing
  | true => exact .present ((hb.has_of_contains hthere).serve (by simp))

theorem advance_missing (hb : b.Awaits r) :
    Underway r ((create r).advance b).2 ((create r).advance b).1 := by
  simp only [create, BrokerProgram.advance]
  cases htaken : b.createRaces || b.topics.contains r.topic with
  | true =>
    rw [hb.steady.serve_create_taken htaken]
    refine (lost ?_).mono (b.serve_settings _).2.1 (Broker.Has.serve · ?_)
    · exact (Bool.or_eq_true_iff.1 htaken).imp_right hb.has_of_contains
    · simp
  | false =>
    obtain ⟨hmade, htopics⟩ :=
      hb.steady.serve_create_free htaken r.partitions r.replicas r.config
    rw [hmade]
    apply met
    rw [Broker.Has, htopics, OrderedMap.find?_insert, if_pos rfl]

theorem advance_present (hb : b.Awaits r) (h : b.Has r) :
    Underway r ((update r).advance b).2 ((update r).advance b).1 := by
  have hvalid := TopicRequirement.validate_ok_iff_meets.2 (Topic.meets_even r)
  simp only [update, BrokerProgram.advance, hb.steady.serve_describe_present h, hvalid]
  exact .checked (h.serve (by simp))

theorem advance_checked (hb : b.Awaits r) (h : b.Has r) :
    Underway r ((reapply r).advance b).2 ((reapply r).advance b).1 := by
  unfold reapply
  split
  · exact .met h
  · obtain ⟨changed, hchanged⟩ := hb.steady.serve_addConfig h r.reapplied
    simp only [BrokerProgram.advance, hchanged]
    exact .met (h.serve (by simp))

/-- Who is done has met the requirement or lost the race, and the topic is there unless someone
else has won it. -/
theorem result {result : Except TopicError Unit} (h : Underway r b (.done result)) :
    (result = .ok () ∨ result = .error (.topicExists r.topic)) ∧
      (b.createRaces = true ∨ b.Has r) := by
  generalize hp : BrokerProgram.done result = p at h
  cases h with
  | start => cases hp
  | missing => cases hp
  | present => cases hp
  | checked h =>
    unfold reapply at hp
    split at hp
    · cases hp
      exact ⟨Or.inl rfl, Or.inr h⟩
    · cases hp
  | met h =>
    cases hp
    exact ⟨Or.inl rfl, Or.inr h⟩
  | lost h =>
    cases hp
    exact ⟨Or.inr rfl, h⟩

/-- One call leads a program from one point to another. -/
theorem advance (hb : b.Awaits r) (h : Underway r b p) :
    Underway r (p.advance b).2 (p.advance b).1 := by
  cases h with
  | start => exact advance_start hb
  | missing => exact advance_missing hb
  | present h => exact advance_present hb h
  | checked h => exact advance_checked hb h
  | met h => exact .met h
  | lost h => exact .lost h

end Underway

end Reconciliation

/-! ## One step -/

namespace BrokerProgram

variable {α : Type} {b : Broker} {r : TopicRequirement} {p : BrokerProgram α}

theorem awaits_advance (hb : b.Awaits r) (h : p.Calls (· ∈ r.calls)) :
    (p.advance b).2.Awaits r := by
  cases p with
  | done x => exact hb
  | ask c next => exact hb.serve h.1

theorem has_advance (hb : b.Has r) (h : p.Calls (· ∈ r.calls)) : (p.advance b).2.Has r := by
  cases p with
  | done x => exact hb
  | ask c next => exact hb.serve h.1

end BrokerProgram

/-! ## How often the topic is made -/

namespace Broker

variable {b : Broker} {r : TopicRequirement} {c : BrokerCall}

/-- How often the topic of a requirement can still be made. -/
def makingsLeft (b : Broker) (r : TopicRequirement) : Nat :=
  if b.topics.contains r.topic then 0 else 1

theorem Has.makingsLeft (h : b.Has r) : b.makingsLeft r = 0 := if_pos h.contains

theorem Awaits.makingsLeft_serve (hb : b.Awaits r) (hc : c ∈ r.calls) :
    (b.serve c).2.makingsLeft r ≤ b.makingsLeft r := by
  cases hthere : b.topics.contains r.topic with
  | true =>
    rw [((hb.has_of_contains hthere).serve hc).makingsLeft]
    exact Nat.zero_le _
  | false =>
    simp only [Broker.makingsLeft, hthere]
    split <;> simp

/-- If a call makes a topic, it was missing, and is there afterwards. -/
theorem Awaits.of_isMaking (hb : b.Awaits r) (hc : c ∈ r.calls)
    (h : BrokerEvent.isMaking ⟨c, (b.serve c).1⟩ = true) :
    b.makingsLeft r = 1 ∧ (b.serve c).2.makingsLeft r = 0 := by
  cases c with
  | topicExists _ => cases h
  | describe _ => cases h
  | addConfig _ _ => cases h
  | create name partitions replicas config =>
    obtain ⟨rfl, -⟩ := TopicRequirement.create_mem_calls.1 hc
    cases htaken : b.createRaces || b.topics.contains r.topic with
    | true =>
      rw [hb.steady.serve_create_taken htaken] at h
      cases h
    | false =>
      constructor
      · simp [makingsLeft, (Bool.or_eq_false_iff.1 htaken).2]
      · obtain ⟨-, htopics⟩ := hb.steady.serve_create_free htaken partitions replicas config
        simp [makingsLeft, OrderedMap.contains, htopics]

end Broker

theorem BrokerProgram.makings_advance {α : Type} {b : Broker} {r : TopicRequirement}
    {p : BrokerProgram α} (hb : b.Awaits r) (h : p.Calls (· ∈ r.calls)) :
    (p.event? b).toList.countP BrokerEvent.isMaking + (p.advance b).2.makingsLeft r ≤
      b.makingsLeft r := by
  cases p with
  | done x => exact Nat.le_of_eq (Nat.zero_add _)
  | ask c next =>
    simp only [event?, Option.toList_some, List.countP_singleton, advance]
    split
    · rename_i hmaking
      obtain ⟨hbefore, hafter⟩ := hb.of_isMaking h.1 hmaking
      exact Nat.le_of_eq (by rw [hbefore, hafter])
    · rw [Nat.zero_add]
      exact hb.makingsLeft_serve h.1

namespace Callers

variable {r : TopicRequirement} {c : Callers (Except TopicError Unit)}

/-- The programs meet one requirement, and each is where it can be. -/
structure Racing (r : TopicRequirement) (c : Callers (Except TopicError Unit)) : Prop where
  awaits : c.broker.Awaits r
  underway : ∀ p ∈ c.programs, Reconciliation.Underway r c.broker p

theorem Racing.step (h : Racing r c) (i : Nat) : Racing r (c.step i) := by
  unfold Callers.step
  split
  · exact h
  · rename_i p hp
    have hunderway := h.underway p (List.mem_of_getElem? hp)
    refine ⟨BrokerProgram.awaits_advance h.awaits hunderway.calls, ?_⟩
    intro q hq
    -- The call has taken away nothing that the other programs rely on.
    rcases List.mem_or_eq_of_mem_set hq with hq | rfl
    · apply (h.underway q hq).mono
      · exact p.createRaces_advance c.broker
      · exact (BrokerProgram.has_advance · hunderway.calls)
    · exact hunderway.advance h.awaits

theorem Racing.after (h : Racing r c) (schedule : List Nat) : Racing r (c.after schedule) :=
  after_preserves (fun _ i h => h.step i) h schedule

theorem Racing.has_step (h : Racing r c) (hhas : c.broker.Has r) (i : Nat) :
    (c.step i).broker.Has r := by
  unfold Callers.step
  split
  · exact hhas
  · rename_i p hp
    exact BrokerProgram.has_advance hhas (h.underway p (List.mem_of_getElem? hp)).calls

theorem Racing.has_after (h : Racing r c) (hhas : c.broker.Has r) (schedule : List Nat) :
    (c.after schedule).broker.Has r :=
  (after_preserves (I := fun c => Racing r c ∧ c.broker.Has r)
    (fun _ i h => ⟨h.1.step i, h.1.has_step h.2 i⟩) ⟨h, hhas⟩ schedule).2

theorem Racing.makings_step (h : Racing r c) (i : Nat) :
    (c.event? i).toList.countP BrokerEvent.isMaking + (c.step i).broker.makingsLeft r ≤
      c.broker.makingsLeft r := by
  unfold event? Callers.step
  cases hp : c.programs[i]? with
  | none => exact Nat.le_of_eq (Nat.zero_add _)
  | some p =>
    exact BrokerProgram.makings_advance h.awaits (h.underway p (List.mem_of_getElem? hp)).calls

/-- Under any schedule, the topic is made at most as often as it still can be. -/
theorem Racing.makings_events (h : Racing r c) (schedule : List Nat) :
    (c.events schedule).countP BrokerEvent.isMaking ≤ c.broker.makingsLeft r := by
  induction schedule generalizing c with
  | nil => exact Nat.zero_le _
  | cons i schedule ih =>
    have hstep := h.makings_step i
    have hrest := ih (h.step i)
    rw [events, List.countP_append]
    omega

theorem racing_ofRequirement {b : Broker} (hb : b.Steady)
    (hmissing : b.topics.find? r.topic = none) (callers : Nat) :
    Racing r (ofRequirement b r callers) := by
  refine ⟨⟨hb, Or.inl hmissing⟩, ?_⟩
  intro p hp
  rw [List.eq_of_mem_replicate hp]
  exact .start

/-! ## A whole race -/

/-- When callers race for a topic that is missing, on a broker where no call fails on its own
account, the topic is made at most once, and each caller that is done has met the requirement or
has lost the race. If no one else makes topics, the topic is there as required from when the first
caller is done. -/
theorem race_ofRequirement {b : Broker} {r : TopicRequirement} (hb : b.Steady)
    (hmissing : b.topics.find? r.topic = none) (callers : Nat) (schedule : List Nat) :
    ((ofRequirement b r callers).events schedule).countP BrokerEvent.isMaking ≤ 1 ∧
    (∀ result, .done result ∈ ((ofRequirement b r callers).after schedule).programs →
      result = .ok () ∨ result = .error (.topicExists r.topic)) ∧
    (b.createRaces = false → ∀ earlier later, schedule = earlier ++ later →
      ∀ result, .done result ∈ ((ofRequirement b r callers).after earlier).programs →
        ((ofRequirement b r callers).after schedule).broker.topics.find? r.topic =
          some (.even r.partitions r.replicas r.config)) := by
  have hstart := racing_ofRequirement hb hmissing callers
  refine ⟨?_, ?_, ?_⟩
  · have hleft : (ofRequirement b r callers).broker.makingsLeft r = 1 := by
      simp [ofRequirement, Broker.makingsLeft, OrderedMap.contains, hmissing]
    exact hleft ▸ hstart.makings_events schedule
  · intro result hdone
    exact ((hstart.after schedule).underway _ hdone).result.1
  · rintro hraces earlier later rfl result hdone
    rw [after_append]
    have hearlier := hstart.after earlier
    apply hearlier.has_after
    apply (hearlier.underway _ hdone).result.2.resolve_left
    rw [createRaces_after, Bool.not_eq_true]
    exact hraces

/-- Three callers for an internal topic that a broker does not have. -/
def threeCallers : Callers (Except TopicError Unit) := ofRequirement {} (.forInternal "t" 1) 3

/-- Two of three callers find the topic missing. One of them makes it and the other loses the
race, and the third finds it there. -/
theorem race_threeCallers :
    (threeCallers.events [0, 1, 0, 1, 2, 2, 2]).countP BrokerEvent.isMaking ≤ 1 ∧
      (threeCallers.after [0, 1, 0, 1, 2, 2, 2]).programs =
        [.done (.ok ()), .done (.error (.topicExists "t")), .done (.ok ())] ∧
      (threeCallers.after [0, 1, 0, 1, 2, 2, 2]).broker.topics.find? "t" =
        some (.even 1 1 (TopicRequirement.forInternal "t" 1).config) := by
  have hsteady : ({} : Broker).Steady := ⟨fun _ _ _ => rfl, fun _ _ => nofun⟩
  obtain ⟨hmade, -, hthere⟩ :=
    race_ofRequirement (r := .forInternal "t" 1) hsteady rfl 3 [0, 1, 0, 1, 2, 2, 2]
  refine ⟨hmade, rfl, hthere rfl [0, 1, 0] [1, 2, 2, 2] rfl (.ok ()) ?_⟩
  exact List.mem_cons_self

end Callers

end StandingQuery
