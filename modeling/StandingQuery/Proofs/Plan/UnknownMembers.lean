import Mathlib.Data.List.Nodup
import Mathlib.Logic.Relation
import StandingQuery.Proofs.Plan.WalkedParts

/-!
# Members without a meaning

An object may have members that its record does not declare. The readers look at declared fields
alone, so what is read stays the same when such members are put in, anywhere in a document. The
check of tags, however, goes from any node to its member `source`, also from the nodes that
read a topic, which declare no such field. So a document that has been read is read as before
if it is read at all, and it is read unless a member `source` has been put into such a node.

* `Inserted`: what it is to put in a member without a meaning.
* `PlanPart.kept_of_inserted`: each part is read as before.
* `PlanPart.carried_of_inserted`: without members `source`, the places that are checked still
  carry their tags.
* `PlanDocument.decode_inserted`: what becomes of a document.
-/

namespace StandingQuery

open Json PlanReader

/-! ## Fields -/

/-- A field of a record: its place in the order of their declaration, its name, and the part that
stands in it, if it is one. -/
structure PartField where
  index : Nat
  name : String
  part : Option PlanPart := none
  deriving DecidableEq, Repr

/-- The fields of all sources. -/
def sourceFields : List PartField :=
  [{ index := 0, name := "properties", part := some .properties },
   { index := 1, name := "topicName" },
   { index := 2, name := "formats", part := some .formats },
   { index := 3, name := "timestampColumn" }, { index := 4, name := "sourceSchema" }]

/-- The first fields of all operators. -/
def inputFields : List PartField :=
  [{ index := 0, name := "properties", part := some .properties },
   { index := 1, name := "source", part := some .node }]

/-- The fields of a node of a kind. -/
def NodeKind.fields : NodeKind → List PartField
  | streamSource | tableSource => sourceFields
  | tableSourceV2 =>
    sourceFields ++ [{ index := 5, name := "stateStoreFormats", part := some .formats }]
  | streamFilter | tableFilter => inputFields ++ [{ index := 2, name := "filterExpression" }]
  | streamSelect | tableSelect =>
    inputFields ++ [{ index := 2, name := "keyColumnNames" },
      { index := 3, name := "selectExpressions" }]
  | streamGroupByKey =>
    inputFields ++ [{ index := 2, name := "internalFormats", part := some .formats }]
  | streamAggregate =>
    inputFields ++ [{ index := 2, name := "internalFormats", part := some .formats },
      { index := 3, name := "nonAggregateColumns" }, { index := 4, name := "aggregationFunctions" }]
  | streamSink | tableSink =>
    inputFields ++ [{ index := 2, name := "formats", part := some .formats },
      { index := 3, name := "topicName" }, { index := 4, name := "timestampColumn" }]

/-- The kind that the tag of a value selects. -/
def nodeKind? (v : Value) : Option NodeKind :=
  (tagged? v).bind fun p => (readVariant .inner nodeVariants p.1).toOption

namespace PlanPart

/-- The fields that a part declares; those of a node depend on its tag. -/
def fields : PlanPart → Value → List PartField
  | document, _ =>
    [{ index := 0, name := "plan", part := some entries }, { index := 1, name := "configs" }]
  | entries, _ => []
  | entry, _ =>
    [{ index := 0, name := "statementText" },
     { index := 1, name := "ddlCommand", part := some command },
     { index := 2, name := "queryPlan", part := some query }]
  | command, _ =>
    [{ index := 0, name := "sourceName" }, { index := 1, name := "schema" },
     { index := 2, name := "topicName" }, { index := 3, name := "formats", part := some formats },
     { index := 4, name := "orReplace" }, { index := 5, name := "timestampColumn" }]
  | query, _ =>
    [{ index := 0, name := "sources" }, { index := 1, name := "sink" },
     { index := 2, name := "physicalPlan", part := some node }, { index := 3, name := "queryId" }]
  | node, v => ((nodeKind? v).map NodeKind.fields).getD []
  | properties, _ => [{ index := 0, name := "queryContext" }]
  | formats, _ =>
    [{ index := 0, name := "keyFormat", part := some format },
     { index := 1, name := "valueFormat", part := some format }]
  | format, _ => [{ index := 0, name := "format" }]

/-- How many items stand before the fields in a part that is written as an array. -/
def tagItems (part : PlanPart) : Nat := if part.category?.isSome then 1 else 0

end PlanPart

/-- A value comes from another that stands for a part by putting one member into an object that
stands for the part, or for a part in it. The member has a name that the object does not
declare and any value; in nodes, the names in `reserved` are not used either. -/
inductive Inserted (reserved : List String) : PlanPart → Value → Value → Prop
  | here {part : PlanPart} {ms : List (String × Value)} {name : String} (x : Value)
      (htag : name ≠ "@type") (hnew : ∀ f ∈ part.fields (.object ms), f.name ≠ name)
      (hfree : part = .node → name ∉ reserved) :
      Inserted reserved part (.object ms) (.object (Entries.insert name x ms))
  | member {part sub : PlanPart} {ms : List (String × Value)} {f : PartField} {w w' : Value}
      (hf : f ∈ part.fields (.object ms)) (hsub : f.part = some sub)
      (hw : ms.lookup f.name = some w) (h : Inserted reserved sub w w') :
      Inserted reserved part (.object ms) (.object (Entries.insert f.name w' ms))
  | item {part sub : PlanPart} {vs : List Value} {f : PartField} {w w' : Value}
      (hf : f ∈ part.fields (.array vs)) (hsub : f.part = some sub)
      (hw : vs[part.tagItems + f.index]? = some w) (h : Inserted reserved sub w w') :
      Inserted reserved part (.array vs) (.array (vs.set (part.tagItems + f.index) w'))
  | entry {vs : List Value} {i : Nat} {w w' : Value} (hw : vs[i]? = some w)
      (h : Inserted reserved .entry w w') :
      Inserted reserved .entries (.array vs) (.array (vs.set i w'))

/-! ## What the tables say -/

namespace PlanPart

variable {part sub sub' : PlanPart} {v : Value} {f g : PartField}

/-- To go through all fields of all parts, it is enough to go through them for each kind of
nodes. -/
theorem forall_fields {P : PlanPart → List PartField → Prop} (part : PlanPart) (v : Value)
    (hnode : ∀ k : NodeKind, P node k.fields) (hnone : P node [])
    (hother : part ≠ node → P part (part.fields .null)) : P part (part.fields v) := by
  by_cases hpart : part = node
  · subst hpart
    rw [fields]
    cases nodeKind? v with
    | none => exact hnone
    | some k => exact hnode k
  · have hsame : part.fields v = part.fields .null := by
      cases part with
      | node => exact absurd rfl hpart
      | _ => rfl
    rw [hsame]
    exact hother hpart

/-- A field is known by its name as well as by its index. -/
theorem fields_nodup (part : PlanPart) (v : Value) :
    ((part.fields v).map PartField.name).Nodup ∧ ((part.fields v).map PartField.index).Nodup := by
  apply forall_fields (P := fun _ fs =>
    (fs.map PartField.name).Nodup ∧ (fs.map PartField.index).Nodup)
  · intro k
    cases k <;> decide
  · decide
  · intro _
    cases part <;> decide

theorem eq_of_name (hf : f ∈ part.fields v) (hg : g ∈ part.fields v) (h : f.name = g.name) :
    f = g :=
  List.inj_on_of_nodup_map (part.fields_nodup v).1 hf hg h

theorem eq_of_index (hf : f ∈ part.fields v) (hg : g ∈ part.fields v) (h : f.index = g.index) :
    f = g :=
  List.inj_on_of_nodup_map (part.fields_nodup v).2 hf hg h

theorem ne_entries (hf : f ∈ part.fields v) : part ≠ entries := by
  rintro rfl
  cases hf

theorem name_ne_type (hf : f ∈ part.fields v) : f.name ≠ "@type" := by
  revert f
  apply forall_fields (P := fun _ fs => ∀ {f}, f ∈ fs → f.name ≠ "@type")
  · intro k
    cases k <;> decide
  · decide
  · intro _
    cases part <;> decide

/-- The check goes on from a field to the part that stands in it. -/
theorem part_of_walked (hf : f ∈ part.fields v) (hw : (f.name, sub) ∈ part.walked) :
    f.part = some sub := by
  have hall : ∀ g ∈ part.fields v, ∀ w ∈ part.walked, g.name = w.1 → g.part = some w.2 := by
    apply forall_fields (P := fun part fs =>
      ∀ g ∈ fs, ∀ w ∈ part.walked, g.name = w.1 → g.part = some w.2)
    · intro k
      cases k <;> decide
    · decide
    · intro _
      cases part <;> decide
  exact hall f hf _ hw rfl

/-- Except for nodes, the check goes on through fields only. -/
theorem declared_of_walked (hpart : part ≠ node) {name : String}
    (hw : (name, sub) ∈ part.walked) (v : Value) : ∃ f ∈ part.fields v, f.name = name := by
  have hall : ∀ w ∈ part.walked, ∃ f ∈ part.fields v, f.name = w.1 := by
    cases part with
    | node => exact absurd rfl hpart
    | _ =>
      simp only [fields]
      decide
  exact hall _ hw

end PlanPart

/-! ## Reading -/

/-- Whatever is read from one value is read from another. -/
def Keeps {α : Type} (read : Value → Read α) (v v' : Value) : Prop :=
  ∀ x, read v = .ok x → read v' = .ok x

/-- Whatever is read from one value for a part is read from another. -/
def PlanPart.Kept : PlanPart → Value → Value → Prop
  | document, v, v' => Keeps readDocument v v'
  | entries, v, v' => Keeps (readList (readEntry .outer)) v v'
  | entry, v, v' => ∀ place, Keeps (readEntry place) v v'
  | command, v, v' => ∀ place, Keeps (readCommand place) v v'
  | query, v, v' => v ≠ .null ∧ ∀ place, Keeps (readQuery place) v v'
  | node, v, v' => ∀ place, Keeps (readNode place) v v'
  | properties, v, v' => ∀ place, Keeps (readContext place) v v'
  | formats, v, v' => ∀ place, Keeps (readFormats place) v v'
  | format, v, v' => ∀ place, Keeps (readFormat place) v v'

/-- For each field, one record gives what another gives, or a value from which the same part is
read. -/
structure PlanReader.Members.Kept (fields : List PartField) (m m' : Members) : Prop where
  atMost : ∀ count, m.AtMost count → m'.AtMost count
  given : ∀ f ∈ fields, m.given? f.index f.name = m'.given? f.index f.name ∨
    ∃ sub w w', f.part = some sub ∧ sub.Kept w w' ∧ m.given? f.index f.name = some w ∧
      m'.given? f.index f.name = some w'

namespace PlanReader.Members.Kept

variable {fields : List PartField} {m m' : Members} {α : Type} {read : Value → Read α}
  {default : Option α} {x : α} {index : Nat} {name : String}

/-- A field that is no part has the same value. -/
theorem plain (h : m.Kept fields m') (hf : { index, name } ∈ fields)
    (hx : (m.slot index name read default).value = .ok x) :
    (m'.slot index name read default).value = .ok x := by
  have hsame : m.given? index name = m'.given? index name := by
    rcases h.given _ hf with hsame | ⟨_, _, _, hpart, _⟩
    · exact hsame
    · cases hpart
  rwa [slot, hsame] at hx

theorem part (h : m.Kept fields m') (sub : PlanPart)
    (hf : { index, name, part := some sub } ∈ fields)
    (hread : ∀ w w', sub.Kept w w' → Keeps read w w')
    (hx : (m.slot index name read default).value = .ok x) :
    (m'.slot index name read default).value = .ok x := by
  rcases h.given _ hf with hsame | ⟨_, w, w', hpart, hkept, hw, hw'⟩
  · rwa [slot, hsame] at hx
  · cases hpart
    simp only [slot, hw, hw', Slot.value, Option.map_some] at hx ⊢
    exact hread w w' hkept x hx

theorem source (h : m.Kept fields m')
    (hf : { index := 1, name := "source", part := some .node } ∈ fields) {n : PlanNode}
    (hn : (m.given? 1 "source").map (readNode .inner) = some (.ok n)) :
    (m'.given? 1 "source").map (readNode .inner) = some (.ok n) := by
  rcases h.given _ hf with hsame | ⟨_, w, w', hpart, hkept, hw, hw'⟩
  · simp only at hsame
    rwa [hsame] at hn
  · cases hpart
    simp only at hw hw'
    rw [hw, Option.map_some, Option.some.injEq] at hn
    rw [hw', Option.map_some, hkept .inner n hn]

end PlanReader.Members.Kept

/-- The members of one value agree with those of another in the fields of a part, which has a tag
or not. -/
def PlanPart.MembersKept (part : PlanPart) (v v' : Value) : Prop :=
  if part.category?.isSome then
    ∀ tag m, tagged? v = some (tag, m) →
      ∃ m', tagged? v' = some (tag, m') ∧ m.Kept (part.fields v) m'
  else
    ∀ record m, Members.ofRecord record v = .ok m →
      ∃ m', Members.ofRecord record v' = .ok m' ∧ m.Kept (part.fields v) m'

section

variable {part : PlanPart} {place : Place} {v v' : Value}

theorem readVariant_inner {κ : Type} {variants : List (String × κ)} {tag : Value} {k : κ}
    (h : readVariant place variants tag = .ok k) : readVariant .inner variants tag = .ok k := by
  cases place with
  | inner => exact h
  | outer =>
    unfold readVariant at h ⊢
    split at h
    · exact h
    · simp at h
    · cases h

theorem fields_of_tagged {tag : Value} {m : Members} {k : NodeKind}
    (hm : tagged? v = some (tag, m)) (hk : readVariant place nodeVariants tag = .ok k) :
    PlanPart.node.fields v = k.fields := by
  simp [PlanPart.fields, nodeKind?, hm, readVariant_inner hk, Except.toOption]

theorem keeps_readContext {w w' : Value} (h : PlanPart.properties.Kept w w') :
    Keeps (readContext .inner) w w' := h .inner

theorem keeps_readFormats {w w' : Value} (h : PlanPart.formats.Kept w w') :
    Keeps (readFormats .inner) w w' := h .inner

theorem inputFields_subset (op : Operator) : inputFields ⊆ op.nodeKind.fields := by
  cases op with
  | groupByKey _ => exact List.subset_append_left _ _
  | aggregate _ _ _ => exact List.subset_append_left _ _
  | filter side _ => cases side <;> exact List.subset_append_left _ _
  | select side _ _ => cases side <;> exact List.subset_append_left _ _
  | sink side _ => cases side <;> exact List.subset_append_left _ _

variable {m m' : Members}

theorem kept_operatorFields {op : Operator} (h : m.Kept op.nodeKind.fields m')
    (ho : OperatorFields m op) : OperatorFields m' op := by
  cases op with
  | filter side e =>
    have hside : m.Kept NodeKind.streamFilter.fields m' := by cases side <;> exact h
    exact hside.plain (by decide) ho
  | select side ks es =>
    have hside : m.Kept NodeKind.streamSelect.fields m' := by cases side <;> exact h
    exact ⟨hside.plain (by decide) ho.1, hside.plain (by decide) ho.2⟩
  | groupByKey f =>
    have hkind : m.Kept NodeKind.streamGroupByKey.fields m' := h
    exact hkind.part .formats (by decide) (fun _ _ => keeps_readFormats) ho
  | aggregate f ps gs =>
    have hkind : m.Kept NodeKind.streamAggregate.fields m' := h
    exact ⟨hkind.part .formats (by decide) (fun _ _ => keeps_readFormats) ho.1,
      hkind.plain (by decide) ho.2.1, hkind.plain (by decide) ho.2.2⟩
  | sink side target =>
    have hside : m.Kept NodeKind.streamSink.fields m' := by cases side <;> exact h
    exact ⟨hside.part .formats (by decide) (fun _ _ => keeps_readFormats) ho.1,
      hside.plain (by decide) ho.2.1, hside.plain (by decide) ho.2.2⟩

theorem sourceFields_subset (kind : SourceKind) : sourceFields ⊆ kind.nodeKind.fields := by
  cases kind with
  | stream => exact List.Subset.refl _
  | table => exact List.Subset.refl _
  | materialized _ => exact List.subset_append_left _ _

/-- The fields of a node are read as before. -/
theorem kept_nodeFields {n : PlanNode} (h : m.Kept n.kind.fields m')
    (hn : NodeFields m ((m.given? 1 "source").map (readNode .inner)) n) :
    NodeFields m' ((m'.given? 1 "source").map (readNode .inner)) n := by
  cases n with
  | source s =>
    have hall := sourceFields_subset s.kind
    obtain ⟨hcontext, hs, hkind⟩ := hn
    refine ⟨h.part .properties (hall (by decide)) (fun _ _ => keeps_readContext) hcontext,
      ⟨h.plain (hall (by decide)) hs.topic,
        h.part .formats (hall (by decide)) (fun _ _ => keeps_readFormats) hs.formats,
        h.plain (hall (by decide)) hs.timestamp, h.plain (hall (by decide)) hs.schema⟩, ?_⟩
    obtain ⟨kind, context, topic, formats, timestamp, schema⟩ := s
    cases kind with
    | stream => trivial
    | table => trivial
    | materialized store =>
      have hstore : m.Kept NodeKind.tableSourceV2.fields m' := h
      exact hstore.part .formats (by decide) (fun _ _ => keeps_readFormats) hkind
  | step op context input =>
    have hall := inputFields_subset op
    obtain ⟨hcontext, hinput, ho⟩ := hn
    exact ⟨h.part .properties (hall (by decide)) (fun _ _ => keeps_readContext) hcontext,
      h.source (hall (by decide)) hinput, kept_operatorFields h ho⟩

/-- A query or null is read as before. -/
theorem keeps_readNullable (h : PlanPart.query.Kept v v') :
    Keeps (readNullable (readQuery .inner)) v v' := by
  intro x hx
  rcases readNullable_eq_ok.1 hx with ⟨hnull, _⟩ | ⟨_, q, hq, rfl⟩
  · exact absurd hnull h.1
  · have hq' := h.2 .inner q hq
    refine readNullable_eq_ok.2 (Or.inr ⟨?_, q, hq', rfl⟩)
    rintro rfl
    cases hq'

/-- A part whose members agree in its fields is read as before. -/
theorem kept_of_membersKept (hpart : part ≠ .entries) (hnull : v ≠ .null)
    (h : part.MembersKept v v') : part.Kept v v' := by
  cases part with
  | entries => exact absurd rfl hpart
  | document =>
    intro d hd
    obtain ⟨m, hm, hcount, hplan, hconfigs⟩ := readDocument_eq_ok.1 hd
    obtain ⟨m', hm', hkept⟩ := h _ m hm
    exact readDocument_eq_ok.2 ⟨m', hm', hkept.atMost _ hcount,
      hkept.part .entries (by simp [PlanPart.fields]) (fun _ _ => id) hplan,
      hkept.plain (by simp [PlanPart.fields]) hconfigs⟩
  | entry =>
    intro place e he
    obtain ⟨tag, m, hm, htag, hcount, hfields⟩ := readEntry_eq_ok.1 he
    obtain ⟨m', hm', hkept⟩ := h tag m hm
    exact readEntry_eq_ok.2 ⟨tag, m', hm', htag, hkept.atMost _ hcount,
      hkept.plain (by simp [PlanPart.fields]) hfields.statement,
      hkept.part .command (by simp [PlanPart.fields]) (fun _ _ hw => hw .inner) hfields.command,
      hkept.part .query (by simp [PlanPart.fields]) (fun _ _ => keeps_readNullable) hfields.query⟩
  | command =>
    intro place c hc
    obtain ⟨tag, m, hm, htag, hcount, hfields⟩ := readCommand_eq_ok.1 hc
    obtain ⟨m', hm', hkept⟩ := h tag m hm
    exact readCommand_eq_ok.2 ⟨tag, m', hm', htag, hkept.atMost _ hcount,
      hkept.plain (by simp [PlanPart.fields]) hfields.name,
      hkept.plain (by simp [PlanPart.fields]) hfields.schema,
      hkept.plain (by simp [PlanPart.fields]) hfields.topic,
      hkept.part .formats (by simp [PlanPart.fields]) (fun _ _ => keeps_readFormats)
        hfields.formats,
      hkept.plain (by simp [PlanPart.fields]) hfields.orReplace,
      hkept.plain (by simp [PlanPart.fields]) hfields.timestamp⟩
  | query =>
    refine ⟨hnull, ?_⟩
    intro place q hq
    obtain ⟨m, hm, hcount, hfields⟩ := readQuery_eq_ok.1 hq
    obtain ⟨m', hm', hkept⟩ := h _ m hm
    exact readQuery_eq_ok.2 ⟨m', hm', hkept.atMost _ hcount,
      hkept.plain (by simp [PlanPart.fields]) hfields.sources,
      hkept.plain (by simp [PlanPart.fields]) hfields.sink,
      hkept.part .node (by simp [PlanPart.fields]) (fun _ _ hw => hw place) hfields.physicalPlan,
      hkept.plain (by simp [PlanPart.fields]) hfields.id⟩
  | node =>
    intro place n hn
    obtain ⟨tag, m, hm, hkind, hcount, hfields⟩ := readNode_eq_ok.1 hn
    obtain ⟨m', hm', hkept⟩ := h tag m hm
    rw [fields_of_tagged hm hkind] at hkept
    exact readNode_eq_ok.2 ⟨tag, m', hm', hkind, hkept.atMost _ hcount,
      kept_nodeFields hkept hfields⟩
  | properties =>
    intro place c hc
    obtain ⟨m, hm, hcount, hcontext⟩ := readContext_eq_ok.1 hc
    obtain ⟨m', hm', hkept⟩ := h _ m hm
    exact readContext_eq_ok.2 ⟨m', hm', hkept.atMost _ hcount,
      hkept.plain (by simp [PlanPart.fields]) hcontext⟩
  | formats =>
    intro place f hf
    obtain ⟨m, hm, hcount, hkey, hvalue⟩ := readFormats_eq_ok.1 hf
    obtain ⟨m', hm', hkept⟩ := h _ m hm
    exact readFormats_eq_ok.2 ⟨m', hm', hkept.atMost _ hcount,
      hkept.part .format (by simp [PlanPart.fields]) (fun _ _ hw => hw place) hkey,
      hkept.part .format (by simp [PlanPart.fields]) (fun _ _ hw => hw place) hvalue⟩
  | format =>
    intro place name hname
    obtain ⟨m, hm, hcount, hformat⟩ := readFormat_eq_ok.1 hname
    obtain ⟨m', hm', hkept⟩ := h _ m hm
    exact readFormat_eq_ok.2 ⟨m', hm', hkept.atMost _ hcount,
      hkept.plain (by simp [PlanPart.fields]) hformat⟩

/-! ## Putting members in -/

theorem membersKept_object {ms ms' : List (String × Value)}
    (htag : ms'.lookup "@type" = ms.lookup "@type")
    (h : (Members.named ms).Kept (part.fields (.object ms)) (.named ms')) :
    part.MembersKept (.object ms) (.object ms') := by
  unfold PlanPart.MembersKept
  split
  · intro tag m hm
    obtain ⟨tag', ht, he⟩ := Option.map_eq_some_iff.1 hm
    cases he
    exact ⟨.named ms', by simp [tagged?, htag, ht], h⟩
  · rintro record m ⟨⟩
    exact ⟨.named ms', rfl, h⟩

/-- The fields of an array start after its tag. -/
theorem membersKept_array {vs : List Value} {f : PartField} {w' : Value}
    (h : ∀ ws, ws = vs.drop part.tagItems →
      (Members.listed ws).Kept (part.fields (.array vs)) (.listed (ws.set f.index w'))) :
    part.MembersKept (.array vs) (.array (vs.set (part.tagItems + f.index) w')) := by
  unfold PlanPart.MembersKept
  split
  · rename_i htag
    have hone : part.tagItems = 1 := if_pos htag
    intro tag m hm
    cases vs with
    | nil => cases hm
    | cons t ws =>
      cases hm
      refine ⟨.listed (ws.set f.index w'), ?_, h ws (by rw [hone, List.drop_one, List.tail_cons])⟩
      rw [hone, Nat.add_comm, List.set_cons_succ]
      rfl
  · rename_i htag
    have hzero : part.tagItems = 0 := if_neg htag
    rintro record m ⟨⟩
    refine ⟨.listed (vs.set f.index w'), ?_, h vs (by rw [hzero, List.drop_zero])⟩
    rw [hzero, Nat.zero_add]
    rfl

variable {reserved : List String}

theorem kept_of_inserted (h : Inserted reserved part v v') : part.Kept v v' := by
  induction h with
  | @here part ms name x htag hnew hfree =>
    by_cases hpart : part = .entries
    · subst hpart
      rintro d ⟨⟩
    · have hnull : Value.object ms ≠ .null := by simp
      apply kept_of_membersKept hpart hnull
      apply membersKept_object
      · rw [Entries.lookup_insert, if_neg htag.symm]
      · refine ⟨fun _ => id, fun f hf => Or.inl ?_⟩
        simp only [Members.given?]
        rw [Entries.lookup_insert, if_neg (hnew f hf)]
  | @member part sub ms f w w' hf hsub hw _ ih =>
    have hpart := PlanPart.ne_entries hf
    have hnull : Value.object ms ≠ .null := by simp
    apply kept_of_membersKept hpart hnull
    apply membersKept_object
    · rw [Entries.lookup_insert, if_neg (PlanPart.name_ne_type hf).symm]
    · refine ⟨fun _ => id, fun g hg => ?_⟩
      simp only [Members.given?]
      rw [Entries.lookup_insert]
      by_cases hname : g.name = f.name
      · obtain rfl := PlanPart.eq_of_name hg hf hname
        exact Or.inr ⟨sub, w, w', hsub, ih, hw, if_pos rfl⟩
      · exact Or.inl (if_neg hname).symm
  | @item part sub vs f w w' hf hsub hw _ ih =>
    have hpart := PlanPart.ne_entries hf
    have hnull : Value.array vs ≠ .null := by simp
    apply kept_of_membersKept hpart hnull
    apply membersKept_array
    rintro ws rfl
    rw [← List.getElem?_drop] at hw
    refine ⟨fun count hcount => ?_, fun g hg => ?_⟩
    · rwa [Members.AtMost, List.length_set]
    · simp only [Members.given?, List.getElem?_set]
      by_cases hindex : g.index = f.index
      · obtain rfl := PlanPart.eq_of_index hg hf hindex
        have hlt := (List.getElem?_eq_some_iff.1 hw).1
        exact Or.inr ⟨sub, w, w', hsub, ih, hw, by rw [if_pos rfl, if_pos hlt]⟩
      · exact Or.inl (if_neg (Ne.symm hindex)).symm
  | @entry vs i w w' hw _ ih =>
    intro es hes
    obtain ⟨_, ⟨⟩, hall⟩ := readList_eq_ok.1 hes
    refine readList_eq_ok.2 ⟨_, rfl, ?_⟩
    rw [List.forall₂_iff_get] at hall ⊢
    refine ⟨by rw [List.length_set, hall.1], ?_⟩
    intro j hj hj'
    have hread := hall.2 j (by rwa [List.length_set] at hj) hj'
    simp only [List.get_eq_getElem, List.getElem_set] at hread ⊢
    split
    · rename_i hij
      subst hij
      apply ih .outer
      rwa [(List.getElem?_eq_some_iff.1 hw).2] at hread
    · exact hread

/-! ## Checking -/

variable {path : Path}

/-- A part still carries its tags if its own tag is as before, and in each member that the check
goes through there is a part that still carries its tags. -/
theorem carried_object {ms ms' : List (String × Value)} (hpart : part ≠ .entries)
    (htag : ms'.lookup "@type" = ms.lookup "@type")
    (hdown : ∀ name sub w', (name, sub) ∈ part.walked → ms'.lookup name = some w' →
      ∃ w, ms.lookup name = some w ∧ ∀ path, sub.Carried path w → sub.Carried path w')
    (h : part.Carried path (.object ms)) : part.Carried path (.object ms') := by
  rw [PlanPart.carried_iff hpart] at h ⊢
  constructor
  · intro category hcategory
    obtain ⟨tag, hcarries, haccepted⟩ := h.1 category hcategory
    refine ⟨tag, ?_, haccepted⟩
    rwa [Value.member?_object, htag]
  · intro name sub w' hname hw'
    obtain ⟨w, hw, hkeeps⟩ := hdown name sub w' hname hw'
    exact hkeeps _ (h.2 name sub w hname hw)

/-- Where no member `source` is put into a node, a part carries its tags as before. -/
theorem PlanPart.carried_of_inserted (h : Inserted ["source"] part v v') :
    ∀ path, part.Carried path v → part.Carried path v' := by
  induction h with
  | @here part ms name x htag hnew hfree =>
    intro path h
    by_cases hpart : part = .entries
    · subst hpart
      intro p hp
      obtain ⟨_, _, _, hvs, _⟩ := mem_places_entries.1 hp
      cases hvs
    · refine carried_object hpart ?_ ?_ h
      · rw [Entries.lookup_insert, if_neg htag.symm]
      · intro walked sub w' hwalked hw'
        -- A member that the check goes through is declared, or is `source` in a node.
        have hne : walked ≠ name := by
          rintro rfl
          by_cases hnode : part = .node
          · subst hnode
            obtain ⟨rfl, _⟩ := Prod.ext_iff.1 (List.mem_singleton.1 hwalked)
            exact hfree rfl (List.mem_singleton_self _)
          · obtain ⟨f, hf, hname⟩ := declared_of_walked hnode hwalked (.object ms)
            exact hnew f hf hname
        rw [Entries.lookup_insert, if_neg hne] at hw'
        exact ⟨w', hw', fun _ => id⟩
  | @member part sub ms f w w' hf hsub hw _ ih =>
    intro path h
    have hpart := PlanPart.ne_entries hf
    refine carried_object hpart ?_ ?_ h
    · rw [Entries.lookup_insert, if_neg (name_ne_type hf).symm]
    · intro walked sub' u' hwalked hu'
      rw [Entries.lookup_insert] at hu'
      by_cases hname : walked = f.name
      · subst hname
        rw [if_pos rfl] at hu'
        cases hu'
        rw [part_of_walked hf hwalked] at hsub
        cases hsub
        exact ⟨w, hw, ih⟩
      · rw [if_neg hname] at hu'
        exact ⟨u', hu', fun _ => id⟩
  | @item part sub vs f w w' hf hsub hw _ ih =>
    intro path h
    have hpart := PlanPart.ne_entries hf
    rw [carried_iff hpart] at h ⊢
    refine ⟨?_, nofun⟩
    intro category hcategory
    obtain ⟨_, hcarries, _⟩ := h.1 category hcategory
    cases hcarries
  | @entry vs i w w' hw _ ih =>
    intro path h p hp
    obtain ⟨_, j, e, ⟨⟩, he, hp⟩ := mem_places_entries.1 hp
    rw [List.getElem?_set] at he
    split at he
    · rename_i hij
      subst hij
      rw [if_pos (List.getElem?_eq_some_iff.1 hw).1] at he
      cases he
      apply ih (path ++ [.index i]) _ p hp
      intro p hp
      exact h p (mem_places_entries.2 ⟨vs, i, w, rfl, hw, hp⟩)
    · exact h p (mem_places_entries.2 ⟨vs, j, e, rfl, he, hp⟩)

end

/-! ## Documents -/

open Relation in
/-- Members without a meaning are put into a document that has been read. If all tags are still
carried, the same document is read, else the error is that of the tags. All tags are still
carried unless a member `source` has been put into a node. -/
theorem PlanDocument.decode_inserted {text text' : List UInt8} {v v' : Value} {d : PlanDocument}
    (h : decode text = .ok d) (hscan : scan text = .ok v) (hscan' : scan text' = .ok v')
    (hinserted : ReflTransGen (Inserted [] .document) v v') :
    decode text' = (checkTags v').map (fun _ => d) ∧
      (ReflTransGen (Inserted ["source"] .document) v v' → decode text' = .ok d) := by
  obtain ⟨w, hw, htags, hread, hvalid⟩ := decode_eq_ok_iff.1 h
  obtain rfl := Except.ok.inj (hscan.symm.trans hw)
  have hread' : PlanReader.readDocument v' = .ok d := by
    clear hscan'
    induction hinserted with
    | refl => exact hread
    | tail _ hstep ih => exact kept_of_inserted hstep d ih
  have hdecode : decode text' = (checkTags v').map fun _ => d := by
    cases hcheck : checkTags v' with
    | ok u => exact decode_eq_ok_iff.2 ⟨v', hscan', hcheck, hread', hvalid⟩
    | error e =>
      rw [decode_eq_decodeValue hscan', decodeValue, hcheck]
      rfl
  refine ⟨hdecode, ?_⟩
  intro hplain
  have htags' : checkTags v' = .ok () := by
    clear hscan' hinserted hread' hdecode
    induction hplain with
    | refl => exact htags
    | tail _ hstep ih =>
      exact PlanPart.checkTags_eq_ok_iff.2
        (PlanPart.carried_of_inserted hstep [] (PlanPart.checkTags_eq_ok_iff.1 ih))
  rw [hdecode, htags']
  rfl

/-! ## A member of the source -/

/-- Formats, written as arrays. -/
def listedFormats : Value := .array [.array [.string "KAFKA"], .array [.string "JSON"]]

/-- The members of a node that reads a topic. -/
def readerMembers : List (String × Value) :=
  [("@type", .string "streamSourceV1"), ("formats", listedFormats),
   ("properties", .array [.string "A"]), ("sourceSchema", .string "`X` DATE"),
   ("topicName", .string "a")]

/-- A document whose query writes what it reads through a node. -/
def readerDocument (node : Value) : Value :=
  .object [("configs", .object []), ("plan", .array [.object [
    ("@type", .string "ksqlPlanV1"),
    ("ddlCommand", .object [
      ("@type", .string "createStreamV1"), ("formats", listedFormats),
      ("schema", .string "`X` DATE"), ("sourceName", .string "S"), ("topicName", .string "s")]),
    ("queryPlan", .object [
      ("physicalPlan", .object [
        ("@type", .string "streamSinkV1"), ("formats", listedFormats),
        ("properties", .array [.string "K"]), ("source", node), ("topicName", .string "s")]),
      ("queryId", .string "q"), ("sink", .string "S"), ("sources", .array [.string "A"])]),
    ("statementText", .string "s")]])]

/-- The text of the document whose node has some more members before its topic. -/
def readerText (more : String) : List UInt8 := Text.Utf8.encode <|
  "\x7b\"configs\":\x7b\x7d,\"plan\":[\x7b\"@type\":\"ksqlPlanV1\",\"ddlCommand\":\x7b" ++
  "\"@type\":\"createStreamV1\",\"formats\":[[\"KAFKA\"],[\"JSON\"]],\"schema\":\"`X` DATE\"," ++
  "\"sourceName\":\"S\",\"topicName\":\"s\"\x7d,\"queryPlan\":\x7b\"physicalPlan\":\x7b" ++
  "\"@type\":\"streamSinkV1\",\"formats\":[[\"KAFKA\"],[\"JSON\"]],\"properties\":[\"K\"]," ++
  "\"source\":\x7b\"@type\":\"streamSourceV1\",\"formats\":[[\"KAFKA\"],[\"JSON\"]]," ++
  "\"properties\":[\"A\"],\"sourceSchema\":\"`X` DATE\"," ++ more ++ "\"topicName\":\"a\"\x7d," ++
  "\"topicName\":\"s\"\x7d,\"queryId\":\"q\",\"sink\":\"S\",\"sources\":[\"A\"]\x7d," ++
  "\"statementText\":\"s\"\x7d]\x7d"

theorem Inserted.readerDocument {reserved : List String} {v v' : Value}
    (h : Inserted reserved .node v v') :
    Inserted reserved .document (readerDocument v) (readerDocument v') := by
  refine .member (f := { index := 0, name := "plan", part := some .entries })
    (by simp [PlanPart.fields]) rfl rfl (.entry (i := 0) rfl ?_)
  refine .member (f := { index := 2, name := "queryPlan", part := some .query })
    (by simp [PlanPart.fields]) rfl rfl ?_
  refine .member (f := { index := 2, name := "physicalPlan", part := some .node })
    (by simp [PlanPart.fields]) rfl rfl ?_
  exact .member (f := { index := 1, name := "source", part := some .node })
    (List.mem_cons_of_mem _ List.mem_cons_self) rfl rfl h

set_option maxRecDepth 4000 in
theorem scan_readerText : scan (readerText "") = .ok (readerDocument (.object readerMembers)) := by
  rfl

theorem decode_readerText : PlanDocument.decode (readerText "") = .ok indexedDocument := by
  rw [PlanDocument.decode_eq_decodeValue scan_readerText]
  rfl

/-- The members of the node with one that means nothing to any reader. -/
def ownedMembers : List (String × Value) := Entries.insert "owner" (.string "o") readerMembers

/-- The members of the node with one that operators would read from. -/
def sourcedMembers : List (String × Value) := Entries.insert "source" (.string "o") readerMembers

set_option maxRecDepth 4000 in
theorem scan_ownedText : scan (readerText "\"owner\":\"o\",") =
    .ok (readerDocument (.object ownedMembers)) := by
  rfl

set_option maxRecDepth 4000 in
theorem scan_sourcedText : scan (readerText "\"source\":\"o\",") =
    .ok (readerDocument (.object sourcedMembers)) := by
  rfl

theorem fields_readerMembers : PlanPart.node.fields (.object readerMembers) = sourceFields := by
  rfl

/-- A member `owner` of a node that reads a topic is ignored. -/
theorem PlanDocument.decode_inserted_owner :
    decode (readerText "") = .ok indexedDocument ∧
      decode (readerText "\"owner\":\"o\",") = .ok indexedDocument := by
  have hinserted : ∀ reserved, "owner" ∉ reserved → Inserted reserved .document
      (readerDocument (.object readerMembers)) (readerDocument (.object ownedMembers)) := by
    intro reserved hfree
    apply Inserted.readerDocument
    refine .here _ (by decide) ?_ fun _ => hfree
    rw [fields_readerMembers]
    decide
  exact ⟨decode_readerText, (decode_inserted decode_readerText scan_readerText scan_ownedText
    (.single (hinserted [] (by decide)))).2 (.single (hinserted ["source"] (by decide)))⟩

/-- A member `source` of a node that reads a topic is taken for a node without a tag, although the
node declares no such field. -/
theorem PlanDocument.decode_inserted_source :
    decode (readerText "") = .ok indexedDocument ∧
      scan (readerText "") = .ok (readerDocument (.object readerMembers)) ∧
      scan (readerText "\"source\":\"o\",") = .ok (readerDocument (.object sourcedMembers)) ∧
      Inserted [] .document (readerDocument (.object readerMembers))
        (readerDocument (.object sourcedMembers)) ∧
      decode (readerText "\"source\":\"o\",") = .error
        (.missingTag "$.plan[0].queryPlan.physicalPlan.source.source (plan node)") := by
  refine ⟨decode_readerText, scan_readerText, scan_sourcedText, ?_, ?_⟩
  · apply Inserted.readerDocument
    refine .here _ (by decide) ?_ nofun
    rw [fields_readerMembers]
    decide
  · rw [decode_eq_decodeValue scan_sourcedText]
    rfl

end StandingQuery
