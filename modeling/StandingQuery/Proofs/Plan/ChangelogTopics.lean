import Mathlib.Data.List.Nodup
import StandingQuery.Plan.Topology
import StandingQuery.Proofs.Except

/-!
# The changelog topics of state stores

The name of a changelog topic joins the query's id, the segments of a node's context and the
role of the store with hyphens. The role can be told from the name, since it comes last and
has no hyphen in it. The id and the context cannot: a hyphen in them reads like one
between them. So two stores of a valid document share a topic exactly if they have the same
role and the same flat name, and no two do where neither ids nor contexts have hyphens.

* `PlanDocument.stores_nodup`: the stores of a valid document differ from each other.
* `StateStore.changelog_eq_iff`: which stores have the same topic.
* `PlanDocument.changelogTopics_nodup_iff`: when no topic is shared.
* `PlanDocument.changelogTopics_nodup_of_no_hyphen`: none is where no name has a hyphen.
-/

namespace StandingQuery

/-! ## State stores -/

/-- What a node keeps in its state store. -/
inductive StoreRole
  /-- The latest rows of a topic. -/
  | reduce
  /-- The latest rows of a topic, in formats of their own. -/
  | materialized
  /-- The aggregates of groups. -/
  | materialize
  deriving DecidableEq, Repr

/-- How the name of a store ends. -/
def StoreRole.suffix : StoreRole → String
  | reduce => "Reduce"
  | materialized => "Materialized"
  | materialize => "Materialize"

/-- The role of a node's store, if it has one. -/
def PlanNode.storeRole? : PlanNode → Option StoreRole
  | source s =>
    match s.kind with
    | .stream => none
    | .table => some .reduce
    | .materialized _ => some .materialized
  | step (.aggregate _ _ _) _ _ => some .materialize
  | step _ _ _ => none

/-- The state store of a node of some query. -/
structure StateStore where
  role : StoreRole
  queryId : String
  context : QueryContext
  deriving DecidableEq, Repr

namespace StateStore

/-- The changelog topic of a store. -/
def changelog (configs : ConfigSnapshot) (s : StateStore) : String :=
  PlanTopology.changelog (configs.applicationId s.queryId) s.context s.role.suffix

/-- The id and the segments of the context, with hyphens between them. -/
def flatName (s : StateStore) : String :=
  "-".intercalate (s.queryId :: s.context.segments)

end StateStore

/-- The state stores of a query, from the sink down. -/
def QueryPlan.stores (q : QueryPlan) : List StateStore :=
  q.physicalPlan.steps.filterMap fun n => n.storeRole?.map fun role => ⟨role, q.id, n.context⟩

/-- The state stores of all queries of a document. -/
def PlanDocument.stores (d : PlanDocument) : List StateStore :=
  d.queries.flatMap QueryPlan.stores

/-- The changelog topics of all queries of a document. -/
def PlanDocument.changelogTopics (d : PlanDocument) : List String :=
  d.queries.flatMap fun q => (PlanTopology.ofQuery q d.configs).changelogTopics

/-! ## Topics and stores -/

namespace PlanTopology

theorem changelog_attributes (applicationId : String) (n : PlanNode) :
    ((attributes applicationId n).filter fun a => a.1 == "changelog").map Prod.snd =
      (n.storeRole?.map fun role => changelog applicationId n.context role.suffix).toList := by
  have hts : ∀ ts : Option String,
      (timestampAttribute ts).filter (fun a => a.1 == "changelog") = [] := by
    intro ts
    cases ts <;> simp [timestampAttribute]
  cases n with
  | source s =>
    obtain ⟨kind, context, topic, formats, timestamp, schema⟩ := s
    cases kind <;>
      simp [attributes, sourceAttributes, PlanNode.storeRole?, hts, StoreRole.suffix,
        PlanNode.context]
  | step op context input =>
    cases op <;>
      simp [attributes, operatorAttributes, PlanNode.storeRole?, hts, StoreRole.suffix,
        PlanNode.context]

theorem changelogTopics_ofQuery (q : QueryPlan) (configs : ConfigSnapshot) :
    (ofQuery q configs).changelogTopics = q.stores.map (StateStore.changelog configs) := by
  have hnodes : (ofQuery q configs).changelogTopics = q.physicalPlan.steps.flatMap fun n =>
      ((attributes (configs.applicationId q.id) n).filter fun a => a.1 == "changelog").map
        Prod.snd := by
    rw [changelogTopics, ofQuery, List.flatMap_map]
    have hfst := List.zipIdx_map_fst 0 q.physicalPlan.steps
    conv_rhs => rw [← hfst, List.flatMap_map]
  rw [hnodes, QueryPlan.stores]
  simp only [changelog_attributes]
  induction q.physicalPlan.steps with
  | nil => rfl
  | cons n ns ih =>
    rw [List.flatMap_cons, ih, List.filterMap_cons]
    cases n.storeRole? <;> rfl

end PlanTopology

theorem PlanDocument.changelogTopics_eq (d : PlanDocument) :
    d.changelogTopics = d.stores.map (StateStore.changelog d.configs) := by
  simp only [changelogTopics, stores, PlanTopology.changelogTopics_ofQuery, List.map_flatMap]

/-! ## What a topic tells -/

namespace StateStore

/-- A topic is the configured beginning, the flat name, the role and a fixed end. -/
theorem changelog_eq (configs : ConfigSnapshot) (s : StateStore) :
    s.changelog configs = internalNamespace ++ configs.serviceId ++ configs.persistentPrefix ++
      s.flatName ++ "-" ++ s.role.suffix ++ "-changelog" := by
  have hne := s.context.segments_ne_nil
  rw [changelog, PlanTopology.changelog, PlanTopology.storeName,
    String.intercalate_append_of_ne_nil (List.cons_ne_nil _ _) (List.cons_ne_nil _ _),
    String.intercalate_cons_of_ne_nil hne, String.intercalate_singleton, flatName,
    String.intercalate_cons_of_ne_nil hne, ConfigSnapshot.applicationId]
  simp only [String.append_assoc]

/-- Two stores have the same topic if they have the same role and the same flat name. -/
theorem changelog_eq_iff (configs : ConfigSnapshot) {s t : StateStore} :
    s.changelog configs = t.changelog configs ↔ s.role = t.role ∧ s.flatName = t.flatName := by
  have hsuffix : ∀ role : StoreRole, '-' ∉ role.suffix.toList := by
    intro role
    cases role <;> decide
  constructor
  · intro h
    rw [changelog_eq, changelog_eq] at h
    simp only [String.append_assoc, String.append_right_inj] at h
    simp only [← String.append_assoc, String.append_left_inj] at h
    have hlist := congrArg String.toList h
    simp only [String.toList_append, List.append_assoc] at hlist
    -- No role has a hyphen, so the last one stands before the role.
    obtain ⟨hname, hsuf⟩ := Text.append_last_inj (hsuffix s.role) (hsuffix t.role) hlist
    refine ⟨?_, String.toList_inj.1 hname⟩
    have hrole := String.toList_inj.1 hsuf
    revert hrole
    cases s.role <;> cases t.role <;> decide
  · rintro ⟨hrole, hname⟩
    rw [changelog_eq, changelog_eq, hrole, hname]

end StateStore

/-! ## Names without hyphens -/

/-- What becomes of a character of a context in the flat name. -/
def flattened (c : Char) : Char := if c = '/' then '-' else c

theorem intercalate_splitOn_slash (cs : List Char) :
    ['-'].intercalate (cs.splitOn '/') = cs.map flattened := by
  induction cs with
  | nil => rfl
  | cons c cs ih =>
    rw [List.splitOn_cons_eq_if_modifyHead, List.map_cons, ← ih, flattened]
    cases hs : cs.splitOn '/' with
    | nil => exact absurd hs (List.splitOn_ne_nil '/' cs)
    | cons s ss =>
      by_cases hc : c = '/'
      · simp [hc, List.intercalate_cons_cons]
      · cases ss with
        | nil => simp [hc]
        | cons t ss => simp [hc, List.intercalate_cons_cons]

theorem flattened_inj {c d : Char} (hc : c ≠ '-') (hd : d ≠ '-')
    (h : flattened c = flattened d) : c = d := by
  unfold flattened at h
  by_cases hcs : c = '/'
  · by_cases hds : d = '/'
    · rw [hcs, hds]
    · rw [if_pos hcs, if_neg hds] at h
      exact absurd h.symm hd
  · by_cases hds : d = '/'
    · rw [if_neg hcs, if_pos hds] at h
      exact absurd h hc
    · rwa [if_neg hcs, if_neg hds] at h

theorem eq_of_map_flattened {xs ys : List Char} (hx : '-' ∉ xs) (hy : '-' ∉ ys)
    (h : xs.map flattened = ys.map flattened) : xs = ys := by
  induction xs generalizing ys with
  | nil => exact (List.map_eq_nil_iff.1 h.symm).symm
  | cons x xs ih =>
    obtain ⟨y, ys, rfl, hxy, hrest⟩ := List.map_eq_cons_iff.1 h.symm
    have hhead : x = y :=
      flattened_inj (List.ne_of_not_mem_cons hx).symm (List.ne_of_not_mem_cons hy).symm hxy.symm
    have htail : xs = ys :=
      ih (List.not_mem_of_not_mem_cons hx) (List.not_mem_of_not_mem_cons hy) hrest.symm
    rw [hhead, htail]

namespace StateStore

theorem toList_flatName (s : StateStore) :
    s.flatName.toList = s.queryId.toList ++ '-' :: s.context.path.toList.map flattened := by
  have hne := s.context.segments_ne_nil
  rw [flatName, String.intercalate_cons_of_ne_nil hne, ← intercalate_splitOn_slash]
  simp [QueryContext.segments, Text.segments, Function.comp_def]

/-- Without hyphens in it, a store can be told from its role and its flat name. -/
theorem eq_of_flatName {s t : StateStore} (hs : '-' ∉ s.queryId.toList)
    (ht : '-' ∉ t.queryId.toList) (hsc : '-' ∉ s.context.path.toList)
    (htc : '-' ∉ t.context.path.toList) (hrole : s.role = t.role)
    (hname : s.flatName = t.flatName) : s = t := by
  have hlist := congrArg String.toList hname
  rw [toList_flatName, toList_flatName] at hlist
  obtain ⟨hid, hmap⟩ := Text.append_first_inj hs ht hlist
  have hpath := eq_of_map_flattened hsc htc hmap
  obtain ⟨srole, sid, ⟨spath⟩⟩ := s
  obtain ⟨trole, tid, ⟨tpath⟩⟩ := t
  cases hrole
  cases String.toList_inj.1 hid
  cases String.toList_inj.1 hpath
  rfl

end StateStore

/-! ## Stores of valid documents -/

namespace PlanNode

/-- The contexts below the root of a valid plan differ from each other and from those above. -/
theorem contexts_of_checkSteps {seen : List String} {depth : Nat} {ns : List PlanNode}
    (h : checkSteps seen depth ns = .ok ()) :
    (ns.map fun n => n.context.path).Nodup ∧ ∀ n ∈ ns, n.context.path ∉ seen := by
  induction ns generalizing seen depth with
  | nil => simp
  | cons n ns ih =>
    unfold checkSteps at h
    split at h
    · cases h
    split at h
    · cases h
    split at h
    · cases h
    rename_i hseen
    obtain ⟨hnodup, hfresh⟩ := ih h
    constructor
    · rw [List.map_cons, List.nodup_cons]
      refine ⟨?_, hnodup⟩
      intro hmem
      obtain ⟨m, hm, hpath⟩ := List.mem_map.1 hmem
      apply hfresh m hm
      rw [hpath]
      exact List.mem_cons_self
    · intro m hm
      rcases List.mem_cons.1 hm with rfl | hm
      · exact hseen
      · intro hmem
        exact hfresh m hm (List.mem_cons_of_mem _ hmem)

end PlanNode

/-- What a query has to pass to be valid. -/
theorem QueryPlan.validate_eq_ok_iff {q : QueryPlan} :
    q.validate = .ok () ↔ q.id ≠ "" ∧ repeatedSource? [] q.sources = none ∧
      q.physicalPlan.isSink = true ∧
        PlanNode.checkSteps [] 0 q.physicalPlan.steps = .ok () := by
  unfold validate
  split
  · rename_i hid
    simp [hid]
  · rename_i hid
    split
    · rename_i hrepeated
      simp [hrepeated]
    · rename_i hrepeated
      unfold PlanNode.validateRoot
      split
      · rename_i hsink
        simp [hid, hrepeated, hsink]
      · rename_i hsink
        simp [hsink]

theorem QueryPlan.stores_nodup {q : QueryPlan} (h : q.validate = .ok ()) : q.stores.Nodup := by
  obtain ⟨_, _, _, hsteps⟩ := validate_eq_ok_iff.1 h
  have hpaths := (PlanNode.contexts_of_checkSteps hsteps).1
  rw [stores]
  apply List.Pairwise.filterMap _ ?_ (List.pairwise_map.1 hpaths)
  intro m n hne s hs t ht hst
  obtain ⟨_, _, rfl⟩ := Option.map_eq_some_iff.1 hs
  obtain ⟨_, _, rfl⟩ := Option.map_eq_some_iff.1 ht
  have hcontext : m.context = n.context := congrArg StateStore.context hst
  exact hne (congrArg QueryContext.path hcontext)

namespace PlanDocument

/-- The queries of valid entries are valid, and their ids differ from each other and from those
of earlier entries. -/
theorem queries_of_checkEntries {earlier ids : List String} {es : List PlanEntry}
    (h : checkEntries earlier ids es = .ok ()) :
    (∀ q ∈ es.filterMap PlanEntry.query, q.validate = .ok () ∧ q.id ∉ ids) ∧
      ((es.filterMap PlanEntry.query).map QueryPlan.id).Nodup := by
  induction es generalizing earlier ids with
  | nil => simp
  | cons e es ih =>
    unfold checkEntries at h
    simp only at h
    cases hq : e.query with
    | none =>
      rw [hq] at h
      rw [List.filterMap_cons, hq]
      exact ih h
    | some q =>
      rw [hq] at h
      obtain ⟨⟨⟩, hvalid, h⟩ := bind_eq_ok.1 h
      split at h
      · cases h
      rename_i hid
      split at h
      · cases h
      split at h
      · cases h
      obtain ⟨hqueries, hnodup⟩ := ih h
      rw [List.filterMap_cons, hq]
      constructor
      · intro r hr
        rcases List.mem_cons.1 hr with rfl | hr
        · exact ⟨hvalid, hid⟩
        · obtain ⟨hr, hfresh⟩ := hqueries r hr
          exact ⟨hr, fun hmem => hfresh (List.mem_cons_of_mem _ hmem)⟩
      · rw [List.map_cons, List.nodup_cons]
        refine ⟨?_, hnodup⟩
        intro hmem
        obtain ⟨r, hr, hrid⟩ := List.mem_map.1 hmem
        apply (hqueries r hr).2
        rw [hrid]
        exact List.mem_cons_self

theorem queryId_of_mem_stores {q : QueryPlan} {s : StateStore} (h : s ∈ q.stores) :
    s.queryId = q.id := by
  obtain ⟨n, _, hn⟩ := List.mem_filterMap.1 h
  obtain ⟨_, _, rfl⟩ := Option.map_eq_some_iff.1 hn
  rfl

/-- The stores of a valid document differ from each other. -/
theorem stores_nodup {d : PlanDocument} (h : d.validate = .ok ()) : d.stores.Nodup := by
  obtain ⟨hqueries, hids⟩ := queries_of_checkEntries h
  rw [stores, List.nodup_flatMap]
  constructor
  · intro q hq
    exact QueryPlan.stores_nodup (hqueries q hq).1
  · apply (List.pairwise_map.1 hids).imp
    intro q r hne s hs ht
    apply hne
    rw [← queryId_of_mem_stores hs, queryId_of_mem_stores ht]

/-- In a valid document whose ids and contexts have no hyphens, no two stores share a changelog
topic. -/
theorem changelogTopics_nodup_of_no_hyphen {d : PlanDocument} (h : d.validate = .ok ())
    (hids : ∀ s ∈ d.stores, '-' ∉ s.queryId.toList)
    (hcontexts : ∀ s ∈ d.stores, '-' ∉ s.context.path.toList) : d.changelogTopics.Nodup := by
  rw [changelogTopics_eq, List.nodup_map_iff_inj_on (stores_nodup h)]
  intro s hs t ht hst
  obtain ⟨hrole, hname⟩ := (StateStore.changelog_eq_iff d.configs).1 hst
  exact StateStore.eq_of_flatName (hids s hs) (hids t ht) (hcontexts s hs) (hcontexts t ht)
    hrole hname

/-- In a valid document no two stores share a changelog topic exactly if no two stores of one
role have the same flat name. -/
theorem changelogTopics_nodup_iff {d : PlanDocument} (h : d.validate = .ok ()) :
    d.changelogTopics.Nodup ↔
      ∀ s ∈ d.stores, ∀ t ∈ d.stores, s.role = t.role → s.flatName = t.flatName → s = t := by
  rw [changelogTopics_eq, List.nodup_map_iff_inj_on (stores_nodup h)]
  constructor
  · intro hinj s hs t ht hrole hname
    exact hinj s hs t ht ((StateStore.changelog_eq_iff d.configs).2 ⟨hrole, hname⟩)
  · intro hflat s hs t ht hst
    obtain ⟨hrole, hname⟩ := (StateStore.changelog_eq_iff d.configs).1 hst
    exact hflat s hs t ht hrole hname

end PlanDocument

/-- A statement that counts the rows of the topic `a` in the table `table`. -/
def countEntry (table id context : String) : PlanEntry where
  statement := "CREATE TABLE " ++ table ++ " AS SELECT COUNT(*) FROM A GROUP BY ID;"
  command := {
    side := .table, name := table, schema := ⟨[⟨"COUNT", .simple .bigint, false⟩], rfl⟩
    topic := table, formats := ⟨"KAFKA", "JSON"⟩, orReplace := false, timestamp := none }
  query := some {
    sources := ["A"], sink := table, id := id
    physicalPlan :=
      .step (.sink .table { formats := ⟨"KAFKA", "JSON"⟩, topic := table, timestamp := none })
        ⟨table⟩ <|
      .step (.aggregate ⟨"KAFKA", "JSON"⟩ ["ID"] ["COUNT(ID)"]) ⟨context⟩ <|
      .step (.groupByKey ⟨"KAFKA", "JSON"⟩) ⟨"Group"⟩ <|
      .source {
        kind := .stream, context := ⟨"Source"⟩, topic := "a", formats := ⟨"KAFKA", "JSON"⟩
        timestamp := none, schema := ⟨[⟨"ID", .simple .integer, false⟩], rfl⟩ } }

/-- Two counts, under different ids. -/
def countsDocument (id context id' context' : String) : PlanDocument :=
  ⟨[countEntry "B" id context, countEntry "C" id' context'], ConfigSnapshot.empty⟩

namespace PlanDocument

theorem changelogTopics_nodup_counts :
    (countsDocument "q" "Aggregate/Total" "r" "Total").changelogTopics.Nodup :=
  (changelogTopics_nodup_iff (by decide +kernel)).2 (by decide +kernel)

/-- The hyphen in the second id stands where the first context has its slash. -/
theorem counts_share_changelog :
    (countsDocument "q" "Aggregate/Total" "q-Aggregate" "Total").validate = .ok () ∧
      ¬ (countsDocument "q" "Aggregate/Total" "q-Aggregate" "Total").changelogTopics.Nodup := by
  constructor <;> decide +kernel

end PlanDocument

end StandingQuery
