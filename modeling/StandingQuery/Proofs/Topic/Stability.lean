import StandingQuery.Proofs.Topic.Acceptance

/-!
# Topics stay accepted

A requirement that has been met can be met again, whatever other requests there have been in
between, for the same topic or for others, failing or not: no request takes away what a
requirement asks for. The one thing that requests can do to each other is to set another
retention. If nobody has done so, to meet the requirement again changes nothing, so it is free
to do it twice.

* `Broker.Met.unchanged`: a requirement is met without effect if the retention is right.
* `TopicRequest.sets_retention`: what a request after which the retention is another has done.
* `Broker.exists_request`: one request among several is to blame for a change.
* `Reconciliation.ofRequirement_again`: a requirement that has been met is met again.
-/

namespace StandingQuery

namespace Broker

variable {b b' : Broker} {r : TopicRequirement} {t : Topic} {name : String}

/-! ## Descriptions stay true -/

theorem Truthful.run {α : Type} (h : b.Truthful) (p : BrokerProgram α) :
    (p.run b).2.Truthful := by
  induction p generalizing b with
  | done x => exact h
  | ask c next ih => exact ih _ (h.serve c)

theorem Truthful.afterRequests (h : b.Truthful) (requests : List TopicRequest) :
    (b.afterRequests requests).Truthful := by
  induction requests generalizing b with
  | nil => exact h
  | cons q requests ih => exact ih (h.run q.program)

/-! ## Retention -/

/-- How long the records of a topic are kept. -/
def retention? (b : Broker) (name : String) : Option String :=
  (b.config? name).bind fun config => config.find? TopicRequirement.retentionKey

theorem retention?_of_find? (h : b.topics.find? name = some t) :
    b.retention? name = t.config.find? TopicRequirement.retentionKey := by
  rw [retention?, config?, h]
  rfl

theorem retention?_congr (h : b'.topics.find? name = b.topics.find? name) :
    b'.retention? name = b.retention? name := by
  rw [retention?, config?, h]
  rfl

/-- If its topic is there with the right retention, a requirement is met without effect. -/
theorem Met.unchanged (h : b.Met r b') (ht : b.topics.find? r.topic = some t)
    (hretention : ∀ v, r.config.find? TopicRequirement.retentionKey = some v →
      b.retention? r.topic = some v) :
    b'.topics = b.topics ∧ b'.mutations = b.mutations := by
  cases h with
  | made _ hmissing =>
    rw [hmissing] at ht
    cases ht
  | kept u hu _ htopics hmutations =>
    have hthere : ∀ key v, r.reapplied.find? key = some v → u.config.find? key = some v := by
      intro key v hv
      rw [r.find?_reapplied] at hv
      split at hv
      · rename_i hkey
        rw [hkey, ← retention?_of_find? hu]
        rw [hkey] at hv
        exact hretention v hv
      · cases hv
    rw [mergeConfig_of_forall hthere] at htopics hmutations
    exact ⟨htopics.trans (OrderedMap.insert_of_find? hu), hmutations⟩

end Broker

/-- A request after which a topic has lost its retention was for that topic and has succeeded, and
the topic has another retention now. -/
theorem TopicRequest.sets_retention {b : Broker} (hb : b.Truthful) {q : TopicRequest}
    {name v : String} (h : b.retention? name = some v)
    (hlost : (q.program.run b).2.retention? name ≠ some v) :
    q.topic = name ∧ (q.program.run b).1 = .ok () ∧
      ∃ v', (q.program.run b).2.retention? name = some v' ∧ v' ≠ v := by
  have hchanged : (q.program.run b).2.topics.find? name ≠ b.topics.find? name :=
    fun hsame => hlost ((Broker.retention?_congr hsame).trans h)
  have htopic : q.topic = name := by
    by_contra hother
    exact hchanged ((BrokerProgram.tended_run q.calls_program b).others name (Ne.symm hother))
  cases hresult : (q.program.run b).1 with
  | error e => exact absurd (congrArg (·.find? name) (q.atomic_program b e hresult)) hchanged
  | ok _ =>
    refine ⟨htopic, rfl, ?_⟩
    rcases q.program_cases with ⟨e, he⟩ | ⟨r, hr, hprogram⟩
    · rw [he] at hresult
      cases hresult
    rw [hprogram] at hresult hlost ⊢
    obtain rfl : r.topic = name := hr.trans htopic
    cases Reconciliation.met_of_run_ok hb hresult with
    | made _ hmissing =>
      rw [Broker.retention?, Broker.config?, hmissing] at h
      cases h
    | kept t ht _ htopics =>
      -- The request has set the retention, or else it would still be the same.
      rw [Broker.retention?_of_find? ht] at h
      have hset := congrArg (·.find? r.topic) htopics
      simp only [OrderedMap.find?_insert, if_true] at hset
      rw [Broker.retention?_of_find? hset] at hlost ⊢
      simp only [Broker.find?_mergeConfig, h] at hlost ⊢
      obtain ⟨v', hv'⟩ : ∃ v', (r.reapplied.find? TopicRequirement.retentionKey).or (some v) =
          some v' := by
        cases r.reapplied.find? TopicRequirement.retentionKey with
        | none => exact ⟨v, rfl⟩
        | some v' => exact ⟨v', rfl⟩
      rw [hv'] at hlost ⊢
      exact ⟨v', rfl, fun hsame => hlost (congrArg some hsame)⟩

/-- If something holds before some requests and not after them, there is one of them before which
it holds and after which it does not. -/
theorem Broker.exists_request {P : Broker → Prop} {b : Broker} {requests : List TopicRequest}
    (hbefore : P b) (hafter : ¬ P (b.afterRequests requests)) :
    ∃ before q after, requests = before ++ q :: after ∧ P (b.afterRequests before) ∧
      ¬ P (q.program.run (b.afterRequests before)).2 := by
  induction requests generalizing b with
  | nil => exact absurd hbefore hafter
  | cons q requests ih =>
    by_cases hq : P (q.program.run b).2
    · obtain ⟨before, q', after, rfl, hholds, hfails⟩ := ih hq hafter
      exact ⟨q :: before, q', after, rfl, hholds, hfails⟩
    · exact ⟨[], q, requests, rfl, hbefore, hq⟩

/-! ## Meeting a requirement again -/

namespace Reconciliation

variable {b accepted : Broker} {r : TopicRequirement}

/-- Once a requirement has been met, it is met again after any requests, if no call fails then.
If this changes anything, the requirement carries a retention, and one of the requests in between
has set another one on the topic. So if there are none in between, nothing changes. -/
theorem ofRequirement_again (hb : b.Truthful)
    (haccepted : (ofRequirement r).run b = (.ok (), accepted)) (requests : List TopicRequest)
    (hcalm : ∀ n c, (accepted.afterRequests requests).requests ≤ n →
      (accepted.afterRequests requests).faults n c = none) :
    let later := accepted.afterRequests requests
    let again := (ofRequirement r).run later
    again.1 = .ok () ∧
      (again.2.topics ≠ later.topics ∨ again.2.mutations ≠ later.mutations →
        ∃ v, r.config.find? "retention.ms" = some v ∧
          ∃ before q after v', requests = before ++ q :: after ∧ q.topic = r.topic ∧
            (q.program.run (accepted.afterRequests before)).1 = .ok () ∧
            (accepted.afterRequests before).retention? r.topic = some v ∧
            (accepted.afterRequests (before ++ [q])).retention? r.topic = some v' ∧ v' ≠ v) ∧
      (requests = [] → again.2.topics = later.topics ∧ again.2.mutations = later.mutations) := by
  have hok : ((ofRequirement r).run b).1 = .ok () := congrArg Prod.fst haccepted
  have haccepted : ((ofRequirement r).run b).2 = accepted := congrArg Prod.snd haccepted
  obtain ⟨t, ht, hmeets, hretention, -⟩ := (met_of_run_ok hb hok).topic
  rw [haccepted] at ht
  have hkept : ∀ v, r.config.find? TopicRequirement.retentionKey = some v →
      accepted.retention? r.topic = some v := by
    intro v hv
    rw [Broker.retention?_of_find? ht]
    exact hretention v hv
  have haccepts : accepted.Truthful := haccepted ▸ hb.run (ofRequirement r)
  have hlater := haccepts.afterRequests requests
  -- The requests in between have left the partitions of the topic as they were.
  obtain ⟨u, hu, hagrees⟩ := Broker.keeps_afterRequests accepted requests r.topic t ht
  have hagain : ((ofRequirement r).run (accepted.afterRequests requests)).1 = .ok () := by
    rw [run_ofRequirement_present ⟨hcalm, hlater⟩ hu, TopicRequirement.validate_ok_iff_meets]
    exact hmeets.of_partitions hagrees.partitions
  have hmet := met_of_run_ok hlater hagain
  refine ⟨hagain, ?_, ?_⟩
  · intro hchanged
    obtain ⟨v, hv, hlost⟩ : ∃ v, r.config.find? TopicRequirement.retentionKey = some v ∧
        (accepted.afterRequests requests).retention? r.topic ≠ some v := by
      by_contra hnone
      push Not at hnone
      obtain ⟨htopics, hmutations⟩ := hmet.unchanged hu hnone
      exact hchanged.elim (absurd htopics) (absurd hmutations)
    obtain ⟨before, q, after, hsplit, hheld, hfails⟩ :=
      Broker.exists_request (P := fun b => b.retention? r.topic = some v) (hkept v hv) hlost
    obtain ⟨htopic, hset, v', hv', hne⟩ :=
      TopicRequest.sets_retention (haccepts.afterRequests before) hheld hfails
    refine ⟨v, hv, before, q, after, v', hsplit, htopic, hset, hheld, ?_, hne⟩
    rw [Broker.afterRequests_append]
    exact hv'
  · rintro rfl
    exact hmet.unchanged hu hkept

/-- A broker without topics, after an internal topic has been asked for. -/
def afterInternal : Broker := ((ofRequirement (.forInternal "t" 1)).run {}).2

/-- A shorter retention that someone has asked for in between is undone, and that is the only
request there was that changed anything. -/
theorem again_afterInternal :
    let requests : List TopicRequest := [.ensureTopic "t" 2 .empty,
      .reconcile (.withConfig { topic := "t", partitions := 1, replicas := 1 } "retention.ms" "1"),
      .ensureInternal "u" .empty]
    let later := afterInternal.afterRequests requests
    ((ofRequirement (.forInternal "t" 1)).run later).1 = .ok () ∧
      ∃ before q after v', requests = before ++ q :: after ∧ q.topic = "t" ∧
        (afterInternal.afterRequests (before ++ [q])).retention? "t" = some v' ∧
        v' ≠ TopicRequirement.longestRetention := by
  intro requests later
  have hb : ({} : Broker).Truthful := nofun
  have hmet : (ofRequirement (.forInternal "t" 1)).run {} = (.ok (), afterInternal) := rfl
  obtain ⟨hagain, hchanged, -⟩ := ofRequirement_again hb hmet requests (fun _ _ _ => rfl)
  refine ⟨hagain, ?_⟩
  obtain ⟨v, hv, before, q, after, v', hsplit, htopic, -, -, hset, hne⟩ :=
    hchanged (Or.inr (by decide))
  obtain rfl : TopicRequirement.longestRetention = v := Option.some.inj hv
  exact ⟨before, q, after, v', hsplit, htopic, hset, hne⟩

end Reconciliation

end StandingQuery
