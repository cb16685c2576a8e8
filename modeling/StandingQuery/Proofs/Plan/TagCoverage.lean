import StandingQuery.Plan.Encoding
import StandingQuery.Plan.Shape
import StandingQuery.Proofs.Plan.Persistence

/-!
# Which tags are checked

The check of tags and the readers look for the parts of a plan in different ways: the check
follows the members of objects, while the readers also take records that are written as arrays
and, inside a tagged record, tags that are given by index. Here the parts of a document are
followed as the readers read them, each with the value it is read from and the tag of what is
read. A part that carries any text in its member `@type` carries the right tag. The check sees
to that for all parts but those that stand in a document, or in a query, that is written as an
array.

* `map_tag_documentParts`: the parts of a document have all the tags of the document.
* `tagged_or_unchecked`: a part carries its tag, or the check does not come to it.
* `tagged_of_objects`: all parts do where the document and its queries are objects.
* `PlanDocument.tagged_iff`: when all parts of a document that was read carry their tags.
-/

namespace StandingQuery

open Json PlanReader

/-! ## Parts of documents -/

/-- A part of a plan that has a tag: the value it is read from and the tag of what is read. -/
structure TaggedPart where
  category : Category
  value : Value
  tag : String

namespace TaggedPart

/-- The value carries the tag of what is read from it. -/
def Tagged (p : TaggedPart) : Prop := CarriesTag p.category p.tag p.value

/-- The value has some text as its member `@type`. -/
def HasText (p : TaggedPart) : Prop := ∃ t, p.value.member? "@type" = some (.string t)

end TaggedPart

/-- What a tagged record gives for a field, in either form. -/
def taggedField? (index : Nat) (name : String) (v : Value) : Option Value :=
  (tagged? v).bind fun p => p.2.given? index name

/-- What an untagged record gives for a field, in either form. -/
def recordField? (index : Nat) (name : String) : Value → Option Value
  | .object ms => ms.lookup name
  | .array vs => vs[index]?
  | _ => none

/-- The nodes of a chain, each with the value it is read from. -/
def nodeParts : PlanNode → Value → List TaggedPart
  | .source s, v => [⟨.planNode, v, s.kind.nodeKind.tag⟩]
  | .step op _ input, v =>
    ⟨.planNode, v, op.nodeKind.tag⟩ ::
      (taggedField? 1 "source" v).toList.flatMap (nodeParts input)

/-- The nodes of a query. -/
def queryParts (q : QueryPlan) (v : Value) : List TaggedPart :=
  (recordField? 2 "physicalPlan" v).toList.flatMap (nodeParts q.physicalPlan)

/-- What an entry gives for its query, if it has one. -/
def queryValue? (e : PlanEntry) (v : Value) : Option (QueryPlan × Value) :=
  e.query.bind fun q => (taggedField? 2 "queryPlan" v).map fun w => (q, w)

/-- An entry, its command and the nodes of its query. -/
def entryParts (e : PlanEntry) (v : Value) : List TaggedPart :=
  ⟨.planEntry, v, PlanEntry.tag⟩ ::
    ((taggedField? 1 "ddlCommand" v).toList.map fun w => ⟨.ddlCommand, w, e.command.tag⟩) ++
      (queryValue? e v).toList.flatMap fun p => queryParts p.1 p.2

/-- The entries of a document, each with the value it is read from. -/
def entryValues (d : PlanDocument) (v : Value) : List (Value × PlanEntry) :=
  (((recordField? 0 "plan" v).bind Value.items?).getD []).zip d.plan

/-- All parts of a document that have tags. -/
def documentParts (d : PlanDocument) (v : Value) : List TaggedPart :=
  (entryValues d v).flatMap fun p => entryParts p.2 p.1

/-! ## Parts that are not checked -/

/-- Whether a value is an object. -/
def isObject : Value → Bool
  | .object _ => true
  | _ => false

/-- The nodes of a query that is not written as an object. -/
def uncheckedNodes (e : PlanEntry) (v : Value) : List TaggedPart :=
  (queryValue? e v).toList.flatMap fun p => if isObject p.2 then [] else queryParts p.1 p.2

/-- The parts of a document that the check does not come to: all of them if the document is not
written as an object, else the nodes of the queries that are not. -/
def uncheckedParts (d : PlanDocument) (v : Value) : List TaggedPart :=
  if isObject v then (entryValues d v).flatMap fun p => uncheckedNodes p.2 p.1
  else documentParts d v

/-! ## Where parts are read from -/

section

variable {place : Place} {v : Value}

theorem taggedField?_of_tagged {tag : Value} {m : Members} (h : tagged? v = some (tag, m))
    (index : Nat) (name : String) : taggedField? index name v = m.given? index name := by
  rw [taggedField?, h, Option.bind_some]

theorem recordField?_of_record {record : String} {m : Members}
    (h : Members.ofRecord record v = .ok m) (index : Nat) (name : String) :
    recordField? index name v = m.given? index name := by
  cases v <;> cases h <;> rfl

theorem source_of_readNode {op : Operator} {context : QueryContext} {input : PlanNode}
    (h : readNode place v = .ok (.step op context input)) :
    ∃ w, taggedField? 1 "source" v = some w ∧ readNode .inner w = .ok input := by
  obtain ⟨tag, m, hm, _, _, _, hsource, _⟩ := readNode_eq_ok.1 h
  obtain ⟨w, hw, hread⟩ := Option.map_eq_some_iff.1 hsource
  refine ⟨w, ?_, hread⟩
  rw [taggedField?_of_tagged hm, hw]

theorem physicalPlan_of_readQuery {q : QueryPlan} (h : readQuery place v = .ok q) :
    ∃ w, recordField? 2 "physicalPlan" v = some w ∧ readNode place w = .ok q.physicalPlan := by
  obtain ⟨m, hm, _, hq⟩ := readQuery_eq_ok.1 h
  obtain ⟨w, hw, hread⟩ := required_eq_ok.1 hq.physicalPlan
  refine ⟨w, ?_, hread⟩
  rw [recordField?_of_record hm, hw]

theorem command_of_readEntry {e : PlanEntry} (h : readEntry place v = .ok e) :
    ∃ w, taggedField? 1 "ddlCommand" v = some w ∧ readCommand .inner w = .ok e.command := by
  obtain ⟨tag, m, hm, _, _, he⟩ := readEntry_eq_ok.1 h
  obtain ⟨w, hw, hread⟩ := required_eq_ok.1 he.command
  refine ⟨w, ?_, hread⟩
  rw [taggedField?_of_tagged hm, hw]

theorem query_of_readEntry {e : PlanEntry} (h : readEntry place v = .ok e) {q : QueryPlan}
    (hq : e.query = some q) :
    ∃ w, taggedField? 2 "queryPlan" v = some w ∧ readQuery .inner w = .ok q := by
  obtain ⟨tag, m, hm, _, _, he⟩ := readEntry_eq_ok.1 h
  obtain ⟨w, hw, hread⟩ := query_of_entryFields he hq
  refine ⟨w, ?_, hread⟩
  rw [taggedField?_of_tagged hm, hw]

/-- The value that an entry gives for its query is the one from which the query is read. -/
theorem readQuery_of_queryValue {e : PlanEntry} (h : readEntry place v = .ok e)
    {q : QueryPlan} {w : Value} (hq : queryValue? e v = some (q, w)) :
    e.query = some q ∧ taggedField? 2 "queryPlan" v = some w ∧ readQuery .inner w = .ok q := by
  obtain ⟨q', hq', hw⟩ := Option.bind_eq_some_iff.1 hq
  obtain ⟨w', hw', he⟩ := Option.map_eq_some_iff.1 hw
  cases he
  obtain ⟨u, hu, hread⟩ := query_of_readEntry h hq'
  rw [hw'] at hu
  cases hu
  exact ⟨hq', hw', hread⟩

/-- The entries of a document are read one by one from the items of its plan. -/
theorem entries_of_readDocument {d : PlanDocument} (h : readDocument v = .ok d) :
    ∃ ws, recordField? 0 "plan" v = some (.array ws) ∧
      List.Forall₂ (fun w e => readEntry .outer w = .ok e) ws d.plan := by
  obtain ⟨m, hm, _, hplan, _⟩ := readDocument_eq_ok.1 h
  obtain ⟨p, hp, hread⟩ := required_eq_ok.1 hplan
  obtain ⟨ws, rfl, hws⟩ := readList_eq_ok.1 hread
  refine ⟨ws, ?_, hws⟩
  rw [recordField?_of_record hm, hp]

theorem readEntry_of_entryValues {d : PlanDocument} (h : readDocument v = .ok d) {w : Value}
    {e : PlanEntry} (he : (w, e) ∈ entryValues d v) : readEntry .outer w = .ok e := by
  obtain ⟨ws, hplan, hws⟩ := entries_of_readDocument h
  rw [entryValues, hplan] at he
  exact (List.forall₂_iff_zip.1 hws).2 he

theorem nodeParts_step {op : Operator} {context : QueryContext} {input : PlanNode} {w : Value}
    (hw : taggedField? 1 "source" v = some w) :
    nodeParts (.step op context input) v =
      ⟨.planNode, v, op.nodeKind.tag⟩ :: nodeParts input w := by
  rw [nodeParts, hw, Option.toList_some, List.flatMap_singleton]

theorem queryParts_eq {q : QueryPlan} {w : Value}
    (hw : recordField? 2 "physicalPlan" v = some w) :
    queryParts q v = nodeParts q.physicalPlan w := by
  rw [queryParts, hw, Option.toList_some, List.flatMap_singleton]

/-! ## The tags of the parts -/

theorem map_tag_nodeParts {n : PlanNode} (h : readNode place v = .ok n) :
    (nodeParts n v).map TaggedPart.tag = n.steps.map PlanNode.tag := by
  induction n generalizing place v with
  | source s => rfl
  | step op context input ih =>
    obtain ⟨w, hw, hread⟩ := source_of_readNode h
    rw [nodeParts_step hw, PlanNode.steps, List.map_cons, List.map_cons, ih hread]
    rfl

theorem map_tag_entryParts {e : PlanEntry} (h : readEntry place v = .ok e) :
    (entryParts e v).map TaggedPart.tag = e.tags := by
  obtain ⟨c, hc, _⟩ := command_of_readEntry h
  rw [entryParts, hc, PlanEntry.tags]
  cases hq : e.query with
  | none => simp [queryValue?, hq]
  | some q =>
    obtain ⟨w, hw, hread⟩ := query_of_readEntry h hq
    obtain ⟨u, hu, hnode⟩ := physicalPlan_of_readQuery hread
    have hnodes := map_tag_nodeParts hnode
    simp [queryValue?, hq, hw, queryParts_eq hu, hnodes]

/-- The parts of a document that was read have all its tags, in order. -/
theorem map_tag_documentParts {d : PlanDocument} (h : readDocument v = .ok d) :
    (documentParts d v).map TaggedPart.tag = d.tags := by
  obtain ⟨ws, hplan, hws⟩ := entries_of_readDocument h
  rw [documentParts, entryValues, hplan, PlanDocument.tags]
  simp only [Option.bind_some, Value.items?, Option.getD_some]
  clear hplan
  generalize d.plan = es at hws
  induction hws with
  | nil => rfl
  | cons he _ ih =>
    rw [List.zip_cons_cons, List.flatMap_cons, List.map_append, List.flatMap_cons,
      map_tag_entryParts he, ih]

/-! ## Texts that are tags -/

theorem readVariant_text {κ : Type} {variants : List (String × κ)} {t : String} {k : κ}
    (h : readVariant place variants (.string t) = .ok k) : (t, k) ∈ variants := by
  unfold readVariant at h
  simp only at h
  split at h
  · rename_i k' hk
    cases h
    obtain ⟨before, after, rfl, _⟩ := List.lookup_eq_some_iff.1 hk
    simp
  · cases h

/-- A text in the member `@type` is the tag that is read. -/
theorem tag_of_member {tag : Value} {m : Members} {t : String} (h : tagged? v = some (tag, m))
    (ht : v.member? "@type" = some (.string t)) : tag = .string t := by
  cases v with
  | object ms =>
    rw [Value.member?_object] at ht
    simp only [tagged?, ht, Option.map_some] at h
    cases h
    rfl
  | _ => cases ht

theorem tagged_of_readNode {n : PlanNode} (h : readNode place v = .ok n)
    (ht : ∃ t, v.member? "@type" = some (.string t)) : CarriesTag .planNode n.tag v := by
  obtain ⟨t, ht⟩ := ht
  obtain ⟨tag, m, hm, hkind, _⟩ := readNode_eq_ok.1 h
  rw [tag_of_member hm ht] at hkind
  obtain ⟨k, _, hk⟩ := List.mem_map.1 (readVariant_text hkind)
  cases hk
  exact ⟨ht, Tag.accepted_planNode n.kind⟩

theorem tagged_of_readCommand {c : CreateSource} (h : readCommand place v = .ok c)
    (ht : ∃ t, v.member? "@type" = some (.string t)) : CarriesTag .ddlCommand c.tag v := by
  obtain ⟨t, ht⟩ := ht
  obtain ⟨tag, m, hm, hside, _⟩ := readCommand_eq_ok.1 h
  rw [tag_of_member hm ht] at hside
  have hmem := readVariant_text hside
  simp only [commandVariants, List.mem_cons, Prod.mk.injEq, List.not_mem_nil, or_false] at hmem
  have htag : t = CreateSource.tagOf c.side := by
    rcases hmem with ⟨ht, hs⟩ | ⟨ht, hs⟩
    · rw [hs, ht]
    · rw [hs, ht]
  rw [htag] at ht
  exact ⟨ht, Tag.accepted_ddlCommand c.side⟩

theorem tagged_of_readEntry {e : PlanEntry} (h : readEntry place v = .ok e)
    (ht : ∃ t, v.member? "@type" = some (.string t)) :
    CarriesTag .planEntry PlanEntry.tag v := by
  obtain ⟨t, ht⟩ := ht
  obtain ⟨tag, m, hm, hunit, _⟩ := readEntry_eq_ok.1 h
  rw [tag_of_member hm ht] at hunit
  have hmem := readVariant_text hunit
  simp only [List.mem_singleton, Prod.mk.injEq] at hmem
  rw [hmem.1] at ht
  exact ⟨ht, Tag.accepted_planEntry⟩

theorem tagged_of_nodeParts {n : PlanNode} (h : readNode place v = .ok n) :
    ∀ p ∈ nodeParts n v, p.HasText → p.Tagged := by
  induction n generalizing place v with
  | source s =>
    intro p hp ht
    cases List.mem_singleton.1 hp
    exact tagged_of_readNode h ht
  | step op context input ih =>
    intro p hp ht
    obtain ⟨w, hw, hread⟩ := source_of_readNode h
    rw [nodeParts_step hw] at hp
    rcases List.mem_cons.1 hp with rfl | hp
    · exact tagged_of_readNode h ht
    · exact ih hread p hp ht

theorem tagged_of_entryParts {e : PlanEntry} (h : readEntry place v = .ok e) :
    ∀ p ∈ entryParts e v, p.HasText → p.Tagged := by
  intro p hp ht
  rcases List.mem_append.1 hp with hp | hp
  · rcases List.mem_cons.1 hp with rfl | hp
    · exact tagged_of_readEntry h ht
    · obtain ⟨c, hc, hread⟩ := command_of_readEntry h
      rw [hc] at hp
      cases List.mem_singleton.1 hp
      exact tagged_of_readCommand hread ht
  · obtain ⟨⟨q, w⟩, hq, hp⟩ := List.mem_flatMap.1 hp
    obtain ⟨_, _, hread⟩ := readQuery_of_queryValue h (Option.mem_toList.1 hq)
    obtain ⟨u, hu, hnode⟩ := physicalPlan_of_readQuery hread
    simp only [queryParts_eq hu] at hp
    exact tagged_of_nodeParts hnode p hp ht

/-- A part with any text as its tag has the right one. -/
theorem tagged_of_hasText {d : PlanDocument} (h : readDocument v = .ok d) :
    ∀ p ∈ documentParts d v, p.HasText → p.Tagged := by
  intro p hp ht
  obtain ⟨⟨w, e⟩, he, hp⟩ := List.mem_flatMap.1 hp
  exact tagged_of_entryParts (readEntry_of_entryValues h he) p hp ht

/-! ## Parts that are checked -/

theorem mem_nodePlaces_self (path : Path) (v : Value) :
    ⟨path, .planNode, v⟩ ∈ nodePlaces path v := by
  cases v <;> simp [nodePlaces]

/-- A value that passes the check is an object, so its fields are its members. -/
theorem member?_of_check {category : Category} {path : Path}
    (h : TaggedPlace.check ⟨path, category, v⟩ = .ok ()) (index : Nat) (name : String) :
    (∃ t, v.member? "@type" = some (.string t)) ∧
      taggedField? index name v = v.member? name := by
  obtain ⟨t, ht, _⟩ := TaggedPlace.check_eq_ok_iff.1 h
  refine ⟨⟨t, ht⟩, ?_⟩
  cases v with
  | object ms =>
    rw [Value.member?_object] at ht
    simp [taggedField?, tagged?, ht, Members.given?]
  | _ => cases ht

theorem tagged_of_nodePlaces {n : PlanNode} (h : readNode place v = .ok n) {path : Path}
    (hcheck : ∀ p ∈ nodePlaces path v, p.check = .ok ()) :
    ∀ p ∈ nodeParts n v, p.Tagged := by
  induction n generalizing place v path with
  | source s =>
    intro p hp
    have hself := hcheck _ (mem_nodePlaces_self path v)
    apply tagged_of_nodeParts h p hp
    cases List.mem_singleton.1 hp
    exact (member?_of_check hself 0 "").1
  | step op context input ih =>
    intro p hp
    have hself := hcheck _ (mem_nodePlaces_self path v)
    obtain ⟨ht, hsource⟩ := member?_of_check hself 1 "source"
    obtain ⟨w, hw, hread⟩ := source_of_readNode h
    rw [nodeParts_step hw] at hp
    rcases List.mem_cons.1 hp with rfl | hp
    · exact tagged_of_readNode h ht
    · -- `v` passes the check, so the node below is read from the member that the walk follows.
      have hplaces : ∀ q ∈ nodePlaces (path ++ [.member "source"]) w, q.check = .ok () := by
        intro q hq
        apply hcheck q
        rw [hsource] at hw
        cases v with
        | object ms =>
          rw [Value.member?_object] at hw
          rw [nodePlaces, sourcePlaces_eq, hw]
          simp [hq]
        | _ => cases hw
      exact ih hread hplaces p hp

theorem tagged_or_uncheckedNodes {e : PlanEntry} (h : readEntry place v = .ok e) {path : Path}
    (hcheck : ∀ p ∈ entryPlaces path v, p.check = .ok ()) :
    ∀ p ∈ entryParts e v, p.Tagged ∨ p ∈ uncheckedNodes e v := by
  intro p hp
  have hself : TaggedPlace.check ⟨path, .planEntry, v⟩ = .ok () :=
    hcheck _ List.mem_cons_self
  rcases List.mem_append.1 hp with hp | hp
  · left
    apply tagged_of_entryParts h p (List.mem_append_left _ hp)
    rcases List.mem_cons.1 hp with rfl | hp
    · exact (member?_of_check hself 0 "").1
    · obtain ⟨c, hc, hread⟩ := command_of_readEntry h
      rw [hc] at hp
      cases List.mem_singleton.1 hp
      have hmember := (member?_of_check hself 1 "ddlCommand").2
      rw [hc] at hmember
      have hplace := hcheck ⟨path ++ [.member "ddlCommand"], .ddlCommand, c⟩ (by
        simp [entryPlaces, ← hmember])
      exact (member?_of_check hplace 0 "").1
  · obtain ⟨⟨q, w⟩, hq, hp⟩ := List.mem_flatMap.1 hp
    have hqv := Option.mem_toList.1 hq
    cases hobject : isObject w with
    | false =>
      right
      apply List.mem_flatMap.2
      exact ⟨(q, w), hq, by simpa [hobject] using hp⟩
    | true =>
      left
      obtain ⟨_, hw, hread⟩ := readQuery_of_queryValue h hqv
      obtain ⟨u, hu, hnode⟩ := physicalPlan_of_readQuery hread
      have hmember := (member?_of_check hself 2 "queryPlan").2
      have hplan : w.member? "physicalPlan" = some u := by
        cases w with
        | object ms => exact hu
        | _ => cases hobject
      rw [hw] at hmember
      have hplaces : ∀ r ∈ nodePlaces (path ++ [.member "queryPlan", .member "physicalPlan"]) u,
          r.check = .ok () := by
        intro r hr
        apply hcheck r
        simp [entryPlaces, ← hmember, hplan, hr]
      simp only [queryParts_eq hu] at hp
      exact tagged_of_nodePlaces hnode hplaces p hp

/-- A part of a document that was read and checked carries its tag, or is not checked. -/
theorem tagged_or_unchecked {d : PlanDocument} (h : readDocument v = .ok d)
    (hcheck : checkTags v = .ok ()) :
    ∀ p ∈ documentParts d v, p.Tagged ∨ p ∈ uncheckedParts d v := by
  intro p hp
  cases hobject : isObject v with
  | false =>
    right
    simpa [uncheckedParts, hobject] using hp
  | true =>
    obtain ⟨⟨w, e⟩, he, hp⟩ := List.mem_flatMap.1 hp
    have hread := readEntry_of_entryValues h he
    obtain ⟨ws, hplan, _⟩ := entries_of_readDocument h
    have hmember : v.member? "plan" = some (.array ws) := by
      cases v with
      | object ms => exact hplan
      | _ => cases hobject
    have hw : w ∈ ws := by
      rw [entryValues, hplan] at he
      exact (List.of_mem_zip he).1
    obtain ⟨i, hi⟩ := List.mem_iff_getElem?.1 hw
    have hplaces : ∀ q ∈ entryPlaces [.member "plan", .index i] w, q.check = .ok () := by
      intro q hq
      apply TaggedPlace.checkAll_eq_ok_iff.1 hcheck q
      rw [taggedPlaces, hmember]
      apply List.mem_flatMap.2
      exact ⟨(w, i), List.mk_mem_zipIdx_iff_getElem?.2 hi, hq⟩
    rcases tagged_or_uncheckedNodes hread hplaces p hp with ht | hu
    · exact Or.inl ht
    · right
      simp only [uncheckedParts, hobject, if_true]
      exact List.mem_flatMap.2 ⟨(w, e), he, hu⟩

theorem uncheckedParts_eq_nil {d : PlanDocument} (hdocument : isObject v = true)
    (hqueries : ∀ p ∈ entryValues d v, ∀ q ∈ queryValue? p.2 p.1, isObject q.2 = true) :
    uncheckedParts d v = [] := by
  rw [uncheckedParts, if_pos hdocument]
  apply List.flatMap_eq_nil_iff.2
  intro p hp
  apply List.flatMap_eq_nil_iff.2
  intro q hq
  rw [if_pos (hqueries p hp q (Option.mem_toList.1 hq))]

/-- Where a document and its queries are written as objects, all parts carry their tags. -/
theorem tagged_of_objects {d : PlanDocument} (h : readDocument v = .ok d)
    (hcheck : checkTags v = .ok ()) (hdocument : isObject v = true)
    (hqueries : ∀ p ∈ entryValues d v, ∀ q ∈ queryValue? p.2 p.1, isObject q.2 = true) :
    ∀ p ∈ documentParts d v, p.Tagged := by
  intro p hp
  rcases tagged_or_unchecked h hcheck p hp with ht | hu
  · exact ht
  · rw [uncheckedParts_eq_nil hdocument hqueries] at hu
    cases hu

theorem unchecked_subset (d : PlanDocument) (v : Value) :
    ∀ p ∈ uncheckedParts d v, p ∈ documentParts d v := by
  intro p hp
  cases hobject : isObject v with
  | false => simpa [uncheckedParts, hobject] using hp
  | true =>
    simp only [uncheckedParts, hobject, if_true] at hp
    obtain ⟨⟨w, e⟩, he, hp⟩ := List.mem_flatMap.1 hp
    obtain ⟨⟨q, u⟩, hq, hp⟩ := List.mem_flatMap.1 hp
    apply List.mem_flatMap.2
    refine ⟨(w, e), he, List.mem_append_right _ (List.mem_flatMap.2 ⟨(q, u), hq, ?_⟩)⟩
    cases hu : isObject u with
    | false => simpa [hu] using hp
    | true => simp [hu] at hp

end

/-- When a text is read, the parts of its value have the tags of the document. All of them carry
their tags exactly if those that are not checked have some text as their tag. -/
theorem PlanDocument.tagged_iff {text : List UInt8} {d : PlanDocument}
    (h : decode text = .ok d) :
    ∃ v, scan text = .ok v ∧ (documentParts d v).map TaggedPart.tag = d.tags ∧
      ((∀ p ∈ documentParts d v, p.Tagged) ↔ ∀ p ∈ uncheckedParts d v, p.HasText) := by
  obtain ⟨v, hscan, hcheck, hread, _⟩ := decode_eq_ok_iff.1 h
  refine ⟨v, hscan, map_tag_documentParts hread, ?_⟩
  constructor
  · intro htagged p hp
    exact ⟨p.tag, (htagged p (unchecked_subset d v p hp)).1⟩
  · intro htext p hp
    rcases tagged_or_unchecked hread hcheck p hp with ht | hu
    · exact ht
    · exact tagged_of_hasText hread p hp (htext p hu)

theorem PlanDocument.tagged_iff_indexed :
    decode indexedText = .ok indexedDocument ∧
      ∃ v, scan indexedText = .ok v ∧
        (documentParts indexedDocument v).map TaggedPart.tag = indexedDocument.tags ∧
        ((∀ p ∈ documentParts indexedDocument v, p.Tagged) ↔
          ∀ p ∈ uncheckedParts indexedDocument v, p.HasText) :=
  ⟨decode_indexedText, tagged_iff decode_indexedText⟩

set_option maxRecDepth 4000 in
/-- The sink of the query, read from the index 7, carries no text as its tag. -/
theorem PlanDocument.indexed_untagged :
    decode indexedText = .ok indexedDocument ∧
      ∃ v, scan indexedText = .ok v ∧ ∃ p ∈ documentParts indexedDocument v, ¬ p.Tagged := by
  refine ⟨decode_indexedText, _, rfl, ?_⟩
  refine ⟨_, List.mem_of_getElem? (i := 2) rfl, ?_⟩
  intro h
  cases h.1

end StandingQuery
