import StandingQuery.Plan.TagWalk
import StandingQuery.Proofs.Plan.WrittenPlans

/-!
# The tagged places of plans

A document passes the check of its tags if every tagged place of it carries, in its member
`@type`, the text of a tag of the table. All tags that are written are of the table, so a
written document always passes.

* `TaggedPlace.check_eq_ok_iff`: what one place needs to pass.
* `checkTags_written`: written documents pass.
-/

namespace StandingQuery

open Json

/-! ## Passing the check -/

/-- A tag of the table that may stand in places of a category. -/
def Tag.Accepted (category : Category) (tag : String) : Prop :=
  ∃ row, Tag.resolve tag category = .ok row

theorem Tag.accepted_planEntry : Tag.Accepted .planEntry PlanEntry.tag := ⟨_, rfl⟩

theorem Tag.accepted_ddlCommand (side : Side) :
    Tag.Accepted .ddlCommand (CreateSource.tagOf side) := by
  cases side <;> exact ⟨_, rfl⟩

theorem Tag.accepted_planNode (k : NodeKind) : Tag.Accepted .planNode k.tag := by
  cases k <;> exact ⟨_, rfl⟩

/-- The value is an object with a tag of the table in its member `@type`. -/
def CarriesTag (category : Category) (tag : String) (v : Value) : Prop :=
  v.member? "@type" = some (.string tag) ∧ Tag.Accepted category tag

namespace TaggedPlace

theorem check_eq_ok_iff {p : TaggedPlace} :
    p.check = .ok () ↔ ∃ tag, CarriesTag p.category tag p.value := by
  unfold check CarriesTag
  constructor
  · intro h
    split at h
    · rename_i tag htag
      obtain ⟨row, hrow, _⟩ := map_eq_ok.1 h
      exact ⟨tag, htag, row, mapError_eq_ok.1 hrow⟩
    · cases h
    · cases h
  · rintro ⟨tag, htag, row, hrow⟩
    rw [htag]
    exact map_eq_ok.2 ⟨row, mapError_eq_ok.2 hrow, rfl⟩

theorem checkAll_eq_ok_iff {ps : List TaggedPlace} :
    checkAll ps = .ok () ↔ ∀ p ∈ ps, p.check = .ok () := by
  induction ps with
  | nil => simp [checkAll]
  | cons p ps ih =>
    have hbind : checkAll (p :: ps) = (p.check >>= fun _ => checkAll ps) := rfl
    rw [hbind, bind_eq_ok, List.forall_mem_cons, ih]
    constructor
    · rintro ⟨⟨⟩, hp, hps⟩
      exact ⟨hp, hps⟩
    · rintro ⟨hp, hps⟩
      exact ⟨(), hp, hps⟩

end TaggedPlace

theorem sourcePlaces_eq (path : Path) (ms : List (String × Value)) :
    sourcePlaces path ms =
      (ms.lookup "source").toList.flatMap (nodePlaces (path ++ [.member "source"])) := by
  induction ms with
  | nil => simp [sourcePlaces]
  | cons m ms ih =>
    obtain ⟨k, v⟩ := m
    rw [sourcePlaces, ih, lookup_cons_if]
    by_cases h : k = "source"
    · simp [h]
    · simp [h, Ne.symm h]

/-! ## Places in written plans -/

open PlanReader

/-- What is found under a key of a written object. -/
theorem member?_written {ms : List (String × Value)} (h : (ms.map Prod.fst).Nodup) (key : String) :
    (Value.object ms).sortKeys.member? key = (ms.lookup key).map Value.sortKeys := by
  rw [Value.sortKeys_object, Value.member?_object, Value.lookup_sortKeys h]

/-- Every place in a written node has a tag of the table. -/
theorem nodePlaces_written (n : PlanNode) : ∀ {path : Path},
    ∀ p ∈ nodePlaces path n.toJson.sortKeys, p.check = .ok () := by
  have hself : ∀ n : PlanNode, ∀ path : Path,
      TaggedPlace.check ⟨path, .planNode, n.toJson.sortKeys⟩ = .ok () := by
    intro n path
    refine TaggedPlace.check_eq_ok_iff.2 ⟨n.kind.tag, ?_, Tag.accepted_planNode n.kind⟩
    rw [toJson_eq_nodeMembers, member?_written (nodeMembers_nodup n), lookup_nodeMembers_tag]
    rfl
  have hplaces : ∀ n : PlanNode, ∀ path : Path, nodePlaces path n.toJson.sortKeys =
      ⟨path, .planNode, n.toJson.sortKeys⟩ :: (((nodeMembers n).lookup "source").toList.flatMap
        fun v => nodePlaces (path ++ [.member "source"]) v.sortKeys) := by
    intro n path
    rw [toJson_eq_nodeMembers, Value.sortKeys_object, nodePlaces, sourcePlaces_eq,
      Value.lookup_sortKeys (nodeMembers_nodup n)]
    cases (nodeMembers n).lookup "source" <;> simp
  induction n with
  | source s =>
    intro path p hp
    have hnone : (nodeMembers (.source s)).lookup "source" = none := by
      obtain ⟨kind, context, topic, formats, timestamp, schema⟩ := s
      cases kind <;>
        simp [nodeMembers, TopicSource.members, lookup_cons_if, List.lookup_append]
    rw [hplaces, hnone] at hp
    rcases List.mem_cons.1 hp with rfl | hp
    · exact hself _ _
    · cases hp
  | step op context input ih =>
    intro path p hp
    have hsource : (nodeMembers (.step op context input)).lookup "source" = some input.toJson := rfl
    rw [hplaces, hsource] at hp
    rcases List.mem_cons.1 hp with rfl | hp
    · exact hself _ _
    · simp only [Option.toList_some, List.flatMap_cons, List.flatMap_nil, List.append_nil] at hp
      exact ih p hp

theorem entryPlaces_written (e : PlanEntry) (path : Path) :
    ∀ p ∈ entryPlaces path e.toJson.sortKeys, p.check = .ok () := by
  have hmember : ∀ key, e.toJson.sortKeys.member? key =
      ((entryMembers e).lookup key).map Value.sortKeys :=
    fun key => member?_written (entryMembers_nodup e) key
  intro p hp
  simp only [entryPlaces, hmember, List.mem_cons, List.mem_append, List.mem_map,
    List.mem_flatMap, Option.mem_toList] at hp
  rcases hp with rfl | ⟨v, hv, rfl⟩ | ⟨v, hv, hp⟩
  · exact TaggedPlace.check_eq_ok_iff.2 ⟨_, hmember "@type", Tag.accepted_planEntry⟩
  · have hc : (entryMembers e).lookup "ddlCommand" = some e.command.toJson := rfl
    rw [hc] at hv
    cases hv
    refine TaggedPlace.check_eq_ok_iff.2 ⟨_, ?_, Tag.accepted_ddlCommand e.command.side⟩
    exact member?_written (commandMembers_nodup e.command) "@type"
  · have hq : (entryMembers e).lookup "queryPlan" = e.query.map QueryPlan.toJson := by
      cases h : e.query <;> simp [entryMembers, lookup_cons_if, h]
    rw [hq] at hv
    cases h : e.query with
    | none => simp [h] at hv
    | some q =>
      have hn : q.toJson.sortKeys.member? "physicalPlan" = some q.physicalPlan.toJson.sortKeys :=
        member?_written (by simp) "physicalPlan"
      simp only [h, Option.map_some, Option.bind_some, hn] at hv
      cases hv
      exact nodePlaces_written q.physicalPlan p hp

/-- The tags of a written document are those of the table. -/
theorem checkTags_written (d : PlanDocument) : checkTags d.toJson.sortKeys = .ok () := by
  have hplan : d.toJson.sortKeys.member? "plan" =
      some (.array (d.plan.map fun e => e.toJson.sortKeys)) := by
    rw [PlanDocument.toJson, member?_written (by simp)]
    simp [Function.comp_def]
  apply TaggedPlace.checkAll_eq_ok_iff.2
  intro p hp
  rw [taggedPlaces, hplan] at hp
  obtain ⟨⟨v, i⟩, hv, hp⟩ := List.mem_flatMap.1 hp
  obtain ⟨e, _, rfl⟩ := List.mem_map.1 (List.fst_mem_of_mem_zipIdx hv)
  exact entryPlaces_written e _ p hp

end StandingQuery
