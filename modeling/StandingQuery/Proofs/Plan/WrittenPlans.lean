import Mathlib.Tactic.Tauto
import StandingQuery.Plan.Writer
import StandingQuery.Proofs.Json.SortedKeys
import StandingQuery.Proofs.Plan.Fields
import StandingQuery.Proofs.Schema.PrintedSchemas

/-!
# Reading written plans

Writing never fails, and each part of a plan is written under the names from which it is read,
so a written part can only be read as itself. What can keep it from being read is a schema: a
type in it may have more levels than the reader allows. Each record is therefore read from
what was written for it exactly if its schemas are within the limit.

* `readNode_written`: a node, with everything it reads from.
* `readDocument_written`: a document.
-/

namespace StandingQuery

open Json

/-! ## Maps -/

/-- Inserting entries that are in order one after the other puts them in that order. -/
theorem OrderedMap.foldl_insert_entries {β : Type} {m : OrderedMap β} {es : List (String × β)}
    (h : Entries.Ordered (m.entries ++ es)) :
    (es.foldl (fun m e => m.insert e.1 e.2) m).entries = m.entries ++ es := by
  induction es generalizing m with
  | nil => simp
  | cons e es ih =>
    have hlt : ∀ d ∈ m.entries, d.1 < e.1 := by
      intro d hd
      exact (List.pairwise_append.1 h).2.2 d hd e List.mem_cons_self
    have hm : (m.insert e.1 e.2).entries = m.entries ++ [e] := Entries.insert_of_forall_lt hlt
    have h' : Entries.Ordered ((m.insert e.1 e.2).entries ++ es) := by
      rwa [hm, List.append_assoc]
    rw [List.foldl_cons, ih h', hm, List.append_assoc]
    rfl

/-- A map is made up of its entries. -/
theorem OrderedMap.ofList_entries {β : Type} (m : OrderedMap β) : ofList m.entries = m := by
  have h : (ofList m.entries).entries = m.entries := foldl_insert_entries m.ordered
  cases m
  cases hm : ofList _
  simp_all

namespace PlanReader

/-! ## Written fields -/

section

variable {ms : List (String × Value)}

@[simp]
theorem value_some {α : Type} (name : String) (r : Read α) (default : Option α) :
    (Slot.mk name (some r) default).value = r := by
  cases default <;> rfl

@[simp]
theorem value_none {α : Type} (name : String) (x : α) :
    (Slot.mk name none (some x)).value = .ok x := rfl

/-- A field of a written record is read from the member that was written for it. -/
theorem value_written {α : Type} (h : (ms.map Prod.fst).Nodup) (index : Nat) (name : String)
    (read : Value → Read α) (default : Option α) :
    ((Members.named (Value.sortOnto [] ms)).slot index name read default).value =
      (Slot.mk name ((ms.lookup name).map fun v => read v.sortKeys) default).value := by
  simp only [Members.slot, Members.given?, Value.lookup_sortKeys h, Option.map_map]
  rfl

/-- A written record has the tag that was written for it. -/
theorem tagged_written (h : (ms.map Prod.fst).Nodup) {t : String}
    (ht : ms.lookup "@type" = some (.string t)) {P : Value → Members → Prop} :
    (∃ tag m, tagged? (.object (Value.sortOnto [] ms)) = some (tag, m) ∧ P tag m) ↔
      P (.string t) (.named (Value.sortOnto [] ms)) := by
  simp [tagged?, Value.lookup_sortKeys h, ht]

end

@[simp]
theorem lookup_optionalMember (name k : String) (text : Option String) :
    (optionalMember name text).lookup k = if k = name then text.map .string else none := by
  cases text with
  | none => simp [optionalMember]
  | some t => simp [optionalMember, lookup_cons_if]

/-- An optional text is read back, be it written or left out. -/
@[simp]
theorem optional_written (name : String) (text : Option String) :
    (Slot.mk name (text.map ((fun v => readNullable readText v.sortKeys) ∘ Value.string))
      (some none)).value = .ok text := by
  cases text <;> rfl

@[simp]
theorem readText_written (s : String) : readText (Value.string s) = .ok s := rfl

@[simp]
theorem readBool_written (b : Bool) : readBool (Value.bool b) = .ok b := rfl

@[simp]
theorem readTexts_written (texts : List String) :
    readList readText (textsToJson texts).sortKeys = .ok texts := by
  refine readList_eq_ok.2 ⟨texts.map .string, ?_, ?_⟩
  · simp [textsToJson, Function.comp_def]
  · simp [List.forall₂_map_left_iff]

/-! ## Written records -/

variable {place : Place}

@[simp]
theorem readFormat_written (name : String) :
    readFormat place (formatToJson name).sortKeys = .ok name := by
  rw [readFormat_eq_ok, formatToJson, Value.sortKeys_object]
  exact ⟨_, rfl, trivial, by simp [value_written]⟩

@[simp]
theorem readFormats_written (f : Formats) :
    readFormats place f.toJson.sortKeys = .ok f := by
  rw [readFormats_eq_ok, Formats.toJson, Value.sortKeys_object]
  refine ⟨_, rfl, trivial, ?_, ?_⟩
  · simp [value_written]
  · simp [value_written, lookup_cons_if]

@[simp]
theorem readContext_written (c : QueryContext) :
    readContext place c.toJson.sortKeys = .ok c := by
  rw [readContext_eq_ok, QueryContext.toJson, Value.sortKeys_object]
  exact ⟨_, rfl, trivial, by simp [value_written]⟩

@[simp]
theorem readSchema_written {s x : LogicalSchema} :
    readSchema s.toJson.sortKeys = .ok x ↔ s.WithinLimit ∧ s = x := by
  rw [readSchema_eq_ok]
  simp only [LogicalSchema.toJson, Value.sortKeys_string, Value.string.injEq, exists_eq_left',
    LogicalSchema.parse_toText_eq_ok_iff, @eq_comm _ x]

@[simp]
theorem readVariant_command {side x : Side} :
    readVariant place commandVariants (.string (CreateSource.tagOf side)) = .ok x ↔ side = x := by
  cases side <;> simp [readVariant, commandVariants, CreateSource.tagOf, lookup_cons_if]

/-- The members of a written command. -/
def commandMembers (c : CreateSource) : List (String × Value) :=
  [("@type", .string c.tag), ("sourceName", .string c.name), ("schema", c.schema.toJson),
   ("topicName", .string c.topic), ("formats", c.formats.toJson),
   ("orReplace", .bool c.orReplace)] ++ optionalMember "timestampColumn" c.timestamp

theorem commandMembers_nodup (c : CreateSource) : ((commandMembers c).map Prod.fst).Nodup := by
  cases h : c.timestamp <;> simp [commandMembers, optionalMember, h]

theorem readCommand_written {c x : CreateSource} :
    readCommand place c.toJson.sortKeys = .ok x ↔ c.schema.WithinLimit ∧ c = x := by
  have htag : (commandMembers c).lookup "@type" = some (.string (CreateSource.tagOf c.side)) := rfl
  have hjson : c.toJson.sortKeys = .object (Value.sortOnto [] (commandMembers c)) := rfl
  rw [readCommand_eq_ok, hjson, tagged_written (commandMembers_nodup c) htag]
  simp only [commandFields_iff, value_written (commandMembers_nodup c)]
  obtain ⟨side, name, schema, topic, formats, orReplace, timestamp⟩ := c
  obtain ⟨side', name', schema', topic', formats', orReplace', timestamp'⟩ := x
  simp [commandMembers, lookup_cons_if, Members.AtMost]
  tauto

/-! ## Written nodes -/

@[simp]
theorem readVariant_node {k x : NodeKind} :
    readVariant place nodeVariants (.string k.tag) = .ok x ↔ k = x := by
  have h : nodeVariants.lookup k.tag = some k := by cases k <;> decide
  simp [readVariant, h]

/-- The members of a written node. -/
def nodeMembers : PlanNode → List (String × Value)
  | .source s => ("@type", .string s.kind.nodeKind.tag) :: s.members
  | .step op context input =>
    [("@type", .string op.nodeKind.tag), ("properties", context.toJson),
     ("source", input.toJson)] ++ op.members

theorem toJson_eq_nodeMembers (n : PlanNode) : n.toJson = .object (nodeMembers n) := by
  cases n <;> rfl

theorem lookup_nodeMembers_tag (n : PlanNode) :
    (nodeMembers n).lookup "@type" = some (.string n.kind.tag) := by
  cases n <;> rfl

theorem nodeMembers_nodup (n : PlanNode) : ((nodeMembers n).map Prod.fst).Nodup := by
  cases n with
  | source s =>
    obtain ⟨kind, context, topic, formats, timestamp, schema⟩ := s
    cases kind <;> cases timestamp <;>
      simp [nodeMembers, TopicSource.members, optionalMember]
  | step op context input =>
    cases op with
    | sink side target =>
      obtain ⟨formats, topic, timestamp⟩ := target
      cases timestamp <;> simp [nodeMembers, Operator.members, optionalMember]
    | _ => simp [nodeMembers, Operator.members]

theorem schemaField_written {s : TopicSource} {x : LogicalSchema} :
    ((Members.named (Value.sortOnto [] (nodeMembers (.source s)))).slot 4 "sourceSchema"
      readSchema).value = .ok x ↔ s.schema.WithinLimit ∧ s.schema = x := by
  rw [value_written (nodeMembers_nodup (.source s))]
  simp [nodeMembers, TopicSource.members, lookup_cons_if, List.lookup_append]

theorem sourceFields_written {s : TopicSource} (h : s.schema.WithinLimit) :
    SourceFields (.named (Value.sortOnto [] (nodeMembers (.source s)))) s := by
  have hnd := nodeMembers_nodup (.source s)
  have hts : (nodeMembers (.source s)).lookup "timestampColumn" = s.timestamp.map .string := by
    obtain ⟨kind, context, topic, formats, timestamp, schema⟩ := s
    cases kind <;>
      simp [nodeMembers, TopicSource.members, lookup_cons_if, List.lookup_append]
  refine ⟨?_, ?_, ?_, schemaField_written.2 ⟨h, rfl⟩⟩
  · rw [value_written hnd]
    simp [nodeMembers, TopicSource.members, lookup_cons_if]
  · rw [value_written hnd]
    simp [nodeMembers, TopicSource.members, lookup_cons_if]
  · rw [value_written hnd, hts, Option.map_map]
    exact optional_written _ _

theorem kindFields_written (s : TopicSource) :
    KindFields (.named (Value.sortOnto [] (nodeMembers (.source s)))) s.kind := by
  have hnd := nodeMembers_nodup (.source s)
  obtain ⟨kind, context, topic, formats, timestamp, schema⟩ := s
  cases kind with
  | stream => trivial
  | table => trivial
  | materialized store =>
    simp only [KindFields]
    rw [value_written hnd]
    simp [nodeMembers, TopicSource.members, lookup_cons_if, List.lookup_append]

theorem operatorFields_written (op : Operator) (context : QueryContext) (input : PlanNode) :
    OperatorFields (.named (Value.sortOnto [] (nodeMembers (.step op context input)))) op := by
  have hnd := nodeMembers_nodup (.step op context input)
  cases op <;> simp only [OperatorFields, value_written hnd] <;>
    simp [nodeMembers, Operator.members, lookup_cons_if]

/-- Whether nodes of a kind read a topic. -/
def isSourceKind : NodeKind → Bool
  | .streamSource | .tableSource | .tableSourceV2 => true
  | _ => false

theorem isSourceKind_kind (n : PlanNode) : isSourceKind n.kind = n.isSource := by
  cases n with
  | source s =>
    obtain ⟨kind, context, topic, formats, timestamp, schema⟩ := s
    cases kind <;> rfl
  | step op context input =>
    cases op with
    | filter side _ => cases side <;> rfl
    | select side _ _ => cases side <;> rfl
    | groupByKey _ => rfl
    | aggregate _ _ _ => rfl
    | sink side _ => cases side <;> rfl

end PlanReader

/-- The schema of the topic that a plan reads is within the limit. -/
def PlanNode.WithinLimit : PlanNode → Prop
  | source s => s.schema.WithinLimit
  | step _ _ input => input.WithinLimit

namespace PlanReader

theorem properties_written (n : PlanNode) :
    ((Members.named (Value.sortOnto [] (nodeMembers n))).slot 0 "properties"
      (readContext .inner)).value = .ok n.context := by
  rw [value_written (nodeMembers_nodup n)]
  cases n with
  | source s => simp [nodeMembers, TopicSource.members, lookup_cons_if, PlanNode.context]
  | step op context input => simp [nodeMembers, lookup_cons_if, PlanNode.context]

theorem readNode_written_iff {n x : PlanNode} :
    readNode place n.toJson.sortKeys = .ok x ↔ n.kind = x.kind ∧
      NodeFields (.named (Value.sortOnto [] (nodeMembers n)))
        (((nodeMembers n).lookup "source").map fun v => readNode .inner v.sortKeys) x := by
  rw [readNode_eq_ok, toJson_eq_nodeMembers, Value.sortKeys_object,
    tagged_written (nodeMembers_nodup n) (lookup_nodeMembers_tag n), readVariant_node]
  simp only [Members.AtMost, true_and, Members.given?, Value.lookup_sortKeys (nodeMembers_nodup n),
    Option.map_map, Function.comp_def]

/-- A reader that gives `a` if it gives anything is described by when it does. -/
theorem eq_ok_iff_of_fits {α : Type} {r : Read α} {fits : Prop} {a : α} (hok : fits → r = .ok a)
    (hfits : ∀ x, r = .ok x → fits) (x : α) : r = .ok x ↔ fits ∧ a = x := by
  constructor
  · intro hx
    have ha := hok (hfits x hx)
    rw [hx] at ha
    cases ha
    exact ⟨hfits _ hx, rfl⟩
  · rintro ⟨hf, rfl⟩
    exact hok hf

/-- A written node is read as that node or not at all. -/
theorem readNode_written (n : PlanNode) : ∀ {place : Place} {x : PlanNode},
    readNode place n.toJson.sortKeys = .ok x ↔ n.WithinLimit ∧ n = x := by
  -- Nodes below the first are read inside another tagged record, so the place has to vary.
  induction n with
  | source s =>
    intro place x
    refine eq_ok_iff_of_fits (fun h => ?_) (fun x hx => ?_) x
    · exact readNode_written_iff.2
        ⟨rfl, properties_written (.source s), sourceFields_written h, kindFields_written s⟩
    · obtain ⟨hk, hf⟩ := readNode_written_iff.1 hx
      have hs : x.isSource = true := by rw [← isSourceKind_kind, ← hk, isSourceKind_kind]; rfl
      cases x with
      | source t => exact (schemaField_written.1 hf.2.1.schema).1
      | step op context input => cases hs
  | step op context input ih =>
    intro place x
    have hinput : ((nodeMembers (.step op context input)).lookup "source").map
        (fun v => readNode .inner v.sortKeys) = some (readNode .inner input.toJson.sortKeys) := rfl
    refine eq_ok_iff_of_fits (fun h => ?_) (fun x hx => ?_) x
    · refine readNode_written_iff.2 ⟨rfl, properties_written (.step op context input), ?_,
        operatorFields_written op context input⟩
      rw [hinput, ih.2 ⟨h, rfl⟩]
    · obtain ⟨hk, hf⟩ := readNode_written_iff.1 hx
      have hs : x.isSource = false := by rw [← isSourceKind_kind, ← hk, isSourceKind_kind]; rfl
      cases x with
      | source t => cases hs
      | step op' context' input' =>
        have hi := hf.2.1
        rw [hinput, Option.some.injEq] at hi
        exact (ih.1 hi).1

/-! ## Written queries, entries and documents -/

theorem readQuery_written {q x : QueryPlan} :
    readQuery place q.toJson.sortKeys = .ok x ↔ q.physicalPlan.WithinLimit ∧ q = x := by
  rw [readQuery_eq_ok, QueryPlan.toJson, Value.sortKeys_object]
  simp only [Members.ofRecord, Except.ok.injEq, exists_eq_left', Members.AtMost, true_and,
    queryFields_iff]
  obtain ⟨sources, sink, physicalPlan, id⟩ := q
  obtain ⟨sources', sink', physicalPlan', id'⟩ := x
  simp [value_written, lookup_cons_if, readNode_written]
  tauto

end PlanReader

/-- All schemas of an entry are within the limit. -/
def PlanEntry.WithinLimit (e : PlanEntry) : Prop :=
  e.command.schema.WithinLimit ∧ ∀ q ∈ e.query, q.physicalPlan.WithinLimit

/-- All schemas of a document are within the limit. -/
def PlanDocument.WithinLimit (d : PlanDocument) : Prop := ∀ e ∈ d.plan, e.WithinLimit

namespace PlanReader

/-- The members of a written entry. -/
def entryMembers (e : PlanEntry) : List (String × Value) :=
  [("@type", .string PlanEntry.tag), ("statementText", .string e.statement),
   ("ddlCommand", e.command.toJson)] ++ e.query.toList.map fun q => ("queryPlan", q.toJson)

theorem entryMembers_nodup (e : PlanEntry) : ((entryMembers e).map Prod.fst).Nodup := by
  cases h : e.query <;> simp [entryMembers, h]

theorem readEntry_written {e x : PlanEntry} :
    readEntry place e.toJson.sortKeys = .ok x ↔ e.WithinLimit ∧ e = x := by
  have htag : (entryMembers e).lookup "@type" = some (.string PlanEntry.tag) := rfl
  have hjson : e.toJson.sortKeys = .object (Value.sortOnto [] (entryMembers e)) := rfl
  have hvariant : readVariant place [(PlanEntry.tag, ())] (.string PlanEntry.tag) = .ok () := rfl
  rw [readEntry_eq_ok, hjson, tagged_written (entryMembers_nodup e) htag, hvariant]
  simp only [entryFields_iff, value_written (entryMembers_nodup e), Members.AtMost, true_and]
  obtain ⟨statement, command, query⟩ := e
  obtain ⟨statement', command', query'⟩ := x
  cases query with
  | none =>
    simp [entryMembers, lookup_cons_if, readCommand_written, PlanEntry.WithinLimit]
    tauto
  | some q =>
    have hq : q.toJson.sortKeys ≠ .null := by simp [QueryPlan.toJson]
    simp [entryMembers, lookup_cons_if, readCommand_written, PlanEntry.WithinLimit,
      readNullable_eq_ok, hq, readQuery_written]
    cases query' with
    | none => simp
    | some q' =>
      simp
      tauto

theorem readConfigs_written (s : ConfigSnapshot) :
    readConfigs s.toJson.sortKeys = .ok s := by
  obtain ⟨⟨es, hord⟩⟩ := s
  have hmembers : Value.sortOnto [] (es.map fun e => (e.1, nullableToJson e.2)) =
      es.map fun e => (e.1, nullableToJson e.2) := by
    have hord' : Entries.Ordered ([] ++ es.map fun e => (e.1, nullableToJson e.2)) := by
      simpa [Entries.Ordered, List.pairwise_map] using hord
    rw [Value.sortOnto_of_ordered hord', List.map_map, List.nil_append]
    apply List.map_congr_left
    intro e _
    cases h : e.2 <;> simp [nullableToJson, h]
  have hread : (es.map fun e => (e.1, nullableToJson e.2)).mapM (fun m =>
      (readNullable readText m.2).map fun value => (m.1, value)) = .ok es := by
    refine mapM_eq_ok.2 (List.forall₂_map_left_iff.2 (List.forall₂_same.2 fun e _ => ?_))
    obtain ⟨k, text⟩ := e
    cases text <;> rfl
  rw [ConfigSnapshot.toJson, Value.sortKeys_object, hmembers, readConfigs, hread]
  exact congrArg Except.ok (congrArg ConfigSnapshot.mk (OrderedMap.ofList_entries ⟨es, hord⟩))

theorem readEntries_written {es xs : List PlanEntry} :
    readList (readEntry .outer) (Value.array (es.map PlanEntry.toJson)).sortKeys = .ok xs ↔
      (∀ e ∈ es, e.WithinLimit) ∧ es = xs := by
  simp only [readList_eq_ok, Value.sortKeys_array, Value.array.injEq, exists_eq_left',
    List.forall₂_map_left_iff, readEntry_written]
  constructor
  · intro h
    induction h with
    | nil => simp
    | cons he _ ih =>
      obtain ⟨hfit, rfl⟩ := he
      obtain ⟨hfits, rfl⟩ := ih
      exact ⟨List.forall_mem_cons.2 ⟨hfit, hfits⟩, rfl⟩
  · rintro ⟨h, rfl⟩
    exact List.forall₂_same.2 fun e he => ⟨h e he, rfl⟩

/-- A written document is read as that document or not at all. -/
theorem readDocument_written {d x : PlanDocument} :
    readDocument d.toJson.sortKeys = .ok x ↔ d.WithinLimit ∧ d = x := by
  rw [readDocument_eq_ok, PlanDocument.toJson, Value.sortKeys_object]
  simp only [Members.ofRecord, Except.ok.injEq, exists_eq_left', Members.AtMost, true_and]
  rw [value_written (by simp), value_written (by simp)]
  obtain ⟨plan, configs⟩ := d
  obtain ⟨plan', configs'⟩ := x
  simp [lookup_cons_if, readEntries_written, readConfigs_written, PlanDocument.WithinLimit,
    -Value.sortKeys_array]
  tauto

end PlanReader

end StandingQuery
