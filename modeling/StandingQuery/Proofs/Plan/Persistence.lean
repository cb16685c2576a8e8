import StandingQuery.Plan.Encoding
import StandingQuery.Proofs.Plan.TagPlaces
import StandingQuery.Proofs.Plan.WrittenNesting

/-!
# Which documents can be read back

A document is written whatever it holds, but read only within three bounds: the parts of the
plan have to fit each other, types have at most `maxTypeDepth` levels, and JSON has at most
`maxDepth` containers around each other. Within these bounds it is read back unchanged, and
beyond them it is not read. Whatever has been read is within them, in whatever form it was
given, since no form of a plan is less deep than the one in which it is written.

* `PlanDocument.decode_encode_eq_ok_iff`: what is read from the text of a document.
* `PlanDocument.persistable_of_decode`: documents that have been read can be read back.
-/

namespace StandingQuery

open Json PlanReader

/-! ## Depths of what is read -/

namespace PlanReader

/-- The greatest depth among the values that are given to a record. -/
def Members.depth : Members → Nat
  | named ms => Value.depthOfMembers ms
  | listed vs => Value.depthOfItems vs

theorem depth_of_given {m : Members} {index : Nat} {name : String} {w : Value}
    (h : m.given? index name = some w) : w.depth ≤ m.depth := by
  cases m with
  | named ms =>
    obtain ⟨before, after, rfl, -⟩ := List.lookup_eq_some_iff.1 h
    exact Value.depthOfMembers_le_iff.1 (Nat.le_refl _) (name, w) (by simp)
  | listed vs =>
    exact Value.depthOfItems_le_iff.1 (Nat.le_refl _) w (List.mem_of_getElem? h)

theorem depth_of_ofRecord {record : String} {v : Value} {m : Members}
    (h : Members.ofRecord record v = .ok m) : m.depth < v.depth := by
  cases v <;> cases h
  · exact Nat.lt_succ_self _
  · exact Nat.lt_succ_self _

theorem depth_of_tagged {v tag : Value} {m : Members} (h : tagged? v = some (tag, m)) :
    m.depth < v.depth := by
  unfold tagged? at h
  split at h
  · obtain ⟨_, _, he⟩ := Option.map_eq_some_iff.1 h
    cases he
    exact Nat.lt_succ_self _
  · cases h
    exact Nat.lt_succ_of_le (Nat.le_max_right _ _)
  · cases h

/-- A required field is read from what is given for it. -/
theorem required_eq_ok {α : Type} {m : Members} {index : Nat} {name : String}
    {read : Value → Read α} {x : α} :
    (m.slot index name read).value = .ok x ↔
      ∃ w, m.given? index name = some w ∧ read w = .ok x := by
  simp [Slot.value_eq_ok_iff, Members.slot]

variable {place : Place} {v : Value}

theorem depth_of_readFormats {f : Formats} (h : readFormats place v = .ok f) : 2 ≤ v.depth := by
  obtain ⟨m, hm, _, hkey, _⟩ := readFormats_eq_ok.1 h
  obtain ⟨w, hw, hread⟩ := required_eq_ok.1 hkey
  obtain ⟨k, hk, _⟩ := readFormat_eq_ok.1 hread
  have h1 := depth_of_ofRecord hk
  have h2 := depth_of_given hw
  have h3 := depth_of_ofRecord hm
  omega

/-- A value from which a chain of nodes is read is deeper than the chain is long, in whatever
form it is given. -/
theorem depth_of_readNode {n : PlanNode} (h : readNode place v = .ok n) :
    n.steps.length + 2 ≤ v.depth := by
  induction n generalizing place v with
  | source s =>
    obtain ⟨tag, m, hm, _, _, _, hs, _⟩ := readNode_eq_ok.1 h
    obtain ⟨w, hw, hread⟩ := required_eq_ok.1 hs.formats
    have h1 := depth_of_readFormats hread
    have h2 := depth_of_given hw
    have h3 := depth_of_tagged hm
    simp only [PlanNode.steps, List.length_singleton]
    omega
  | step op context input ih =>
    obtain ⟨tag, m, hm, _, _, _, hsource, _⟩ := readNode_eq_ok.1 h
    obtain ⟨w, hw, hread⟩ := Option.map_eq_some_iff.1 hsource
    have h1 := ih hread
    have h2 := depth_of_given hw
    have h3 := depth_of_tagged hm
    simp only [PlanNode.steps, List.length_cons]
    omega

theorem depth_of_readQuery {q : QueryPlan} (h : readQuery place v = .ok q) :
    q.physicalPlan.steps.length + 3 ≤ v.depth := by
  obtain ⟨m, hm, _, hq⟩ := readQuery_eq_ok.1 h
  obtain ⟨w, hw, hread⟩ := required_eq_ok.1 hq.physicalPlan
  have h1 := depth_of_readNode hread
  have h2 := depth_of_given hw
  have h3 := depth_of_ofRecord hm
  omega

/-- The query of an entry is read from the value that is given for it. -/
theorem query_of_entryFields {m : Members} {e : PlanEntry} {q : QueryPlan}
    (h : EntryFields m e) (hq : e.query = some q) :
    ∃ w, m.given? 2 "queryPlan" = some w ∧ readQuery .inner w = .ok q := by
  have hv := h.query
  rw [hq] at hv
  rcases Slot.value_eq_ok_iff.1 hv with hf | ⟨_, hd⟩
  · obtain ⟨w, hw, hread⟩ := Option.map_eq_some_iff.1 hf
    rcases readNullable_eq_ok.1 hread with ⟨_, hn⟩ | ⟨_, y, hy, he⟩
    · cases hn
    · cases he
      exact ⟨w, hw, hy⟩
  · cases hd

theorem depth_of_readEntry {e : PlanEntry} {q : QueryPlan} (h : readEntry place v = .ok e)
    (hq : e.query = some q) : q.physicalPlan.steps.length + 4 ≤ v.depth := by
  obtain ⟨tag, m, hm, _, _, he⟩ := readEntry_eq_ok.1 h
  obtain ⟨w, hw, hread⟩ := query_of_entryFields he hq
  have h1 := depth_of_readQuery hread
  have h2 := depth_of_given hw
  have h3 := depth_of_tagged hm
  omega

theorem exists_of_forall₂ {α β : Type} {R : α → β → Prop} {xs : List α} {ys : List β}
    (h : List.Forall₂ R xs ys) {y : β} (hy : y ∈ ys) : ∃ x ∈ xs, R x y := by
  induction h with
  | nil => cases hy
  | cons hr _ ih =>
    rcases List.mem_cons.1 hy with rfl | hy
    · exact ⟨_, List.mem_cons_self, hr⟩
    · obtain ⟨x, hx, hxy⟩ := ih hy
      exact ⟨x, List.mem_cons_of_mem _ hx, hxy⟩

/-- Each entry of a document is read from an item of the document's plan. -/
theorem entry_of_readDocument {d : PlanDocument} (h : readDocument v = .ok d) {e : PlanEntry}
    (he : e ∈ d.plan) : ∃ w, readEntry .outer w = .ok e ∧ w.depth + 2 ≤ v.depth := by
  obtain ⟨m, hm, _, hplan, _⟩ := readDocument_eq_ok.1 h
  obtain ⟨_, hp, hread⟩ := required_eq_ok.1 hplan
  obtain ⟨ws, rfl, hws⟩ := readList_eq_ok.1 hread
  obtain ⟨w, hw, hwe⟩ := exists_of_forall₂ hws he
  have h1 := Value.depthOfItems_le_iff.1 (Nat.le_refl _) w hw
  have h2 := depth_of_given hp
  have h3 := depth_of_ofRecord hm
  rw [Value.depth] at h2
  exact ⟨w, hwe, by omega⟩

/-! ## Schemas of what is read -/

theorem withinLimit_of_required {m : Members} {index : Nat} {name : String} {s : LogicalSchema}
    (h : (m.slot index name readSchema).value = .ok s) : s.WithinLimit := by
  obtain ⟨w, _, hread⟩ := required_eq_ok.1 h
  obtain ⟨text, _, hparse⟩ := readSchema_eq_ok.1 hread
  exact LogicalSchema.withinLimit_of_parse hparse

theorem withinLimit_of_readNode {n : PlanNode} (h : readNode place v = .ok n) : n.WithinLimit := by
  induction n generalizing place v with
  | source s =>
    obtain ⟨_, _, _, _, _, _, hs, _⟩ := readNode_eq_ok.1 h
    exact withinLimit_of_required hs.schema
  | step op context input ih =>
    obtain ⟨_, _, _, _, _, _, hsource, _⟩ := readNode_eq_ok.1 h
    obtain ⟨w, _, hread⟩ := Option.map_eq_some_iff.1 hsource
    exact ih hread

theorem withinLimit_of_readEntry {e : PlanEntry} (h : readEntry place v = .ok e) :
    e.WithinLimit := by
  obtain ⟨_, m, _, _, _, he⟩ := readEntry_eq_ok.1 h
  constructor
  · obtain ⟨w, _, hread⟩ := required_eq_ok.1 he.command
    obtain ⟨_, _, _, _, _, hc⟩ := readCommand_eq_ok.1 hread
    exact withinLimit_of_required hc.schema
  · intro q hq
    obtain ⟨w, _, hread⟩ := query_of_entryFields he hq
    obtain ⟨_, _, _, hfields⟩ := readQuery_eq_ok.1 hread
    obtain ⟨u, _, hnode⟩ := required_eq_ok.1 hfields.physicalPlan
    exact withinLimit_of_readNode hnode

end PlanReader

/-! ## Reading back -/

/-- A document that can be written and read back: it is valid, its types have at most
`maxTypeDepth` levels, and its plans have at most `maxSteps` nodes. -/
structure PlanDocument.Persistable (d : PlanDocument) : Prop where
  valid : d.validate = .ok ()
  withinLimit : d.WithinLimit
  short : ∀ q ∈ d.queries, q.physicalPlan.steps.length ≤ maxSteps

theorem Json.Value.bytes_eq (v : Value) : v.bytes = utf8 v.render := encode_ofList v.render

/-- A text is read if it passes all four stages. -/
theorem PlanDocument.decode_eq_ok_iff {text : List UInt8} {d : PlanDocument} :
    decode text = .ok d ↔ ∃ v, scan text = .ok v ∧ checkTags v = .ok () ∧
      readDocument v = .ok d ∧ d.validate = .ok () := by
  simp only [decode, decodeValue, bind_eq_ok, mapError_eq_ok, pure_eq_ok]
  constructor
  · rintro ⟨v, hv, ⟨⟩, htags, d, hd, ⟨⟩, hvalid, rfl⟩
    exact ⟨v, hv, htags, hd, hvalid⟩
  · rintro ⟨v, hv, htags, hd, hvalid⟩
    exact ⟨v, hv, (), htags, d, hd, (), hvalid, rfl⟩

theorem PlanDocument.scan_encode_eq_ok_iff {d : PlanDocument} {v : Value} :
    scan d.encode = .ok v ↔
      (∀ q ∈ d.queries, q.physicalPlan.steps.length ≤ maxSteps) ∧ d.toJson.sortKeys = v := by
  rw [encode, Json.Value.bytes_eq, scan_render d.numberless_toJson, ← d.depth_toJson_le_iff]
  by_cases h : d.toJson.depth ≤ maxDepth <;> simp [h]

/-- The text of a document is read as that document or not at all. -/
theorem PlanDocument.decode_encode_eq_ok_iff {d x : PlanDocument} :
    decode d.encode = .ok x ↔ d.Persistable ∧ d = x := by
  simp only [decode_eq_ok_iff, scan_encode_eq_ok_iff]
  constructor
  · rintro ⟨v, ⟨hshort, rfl⟩, _, hread, hvalid⟩
    obtain ⟨hfit, rfl⟩ := readDocument_written.1 hread
    exact ⟨⟨hvalid, hfit, hshort⟩, rfl⟩
  · rintro ⟨⟨hvalid, hfit, hshort⟩, rfl⟩
    exact ⟨_, ⟨hshort, rfl⟩, checkTags_written d, readDocument_written.2 ⟨hfit, rfl⟩, hvalid⟩

/-- Whatever has been read can be written and read back. -/
theorem PlanDocument.persistable_of_decode {text : List UInt8} {d : PlanDocument}
    (h : decode text = .ok d) : d.Persistable := by
  obtain ⟨v, hscan, _, hread, hvalid⟩ := decode_eq_ok_iff.1 h
  refine ⟨hvalid, ?_, ?_⟩
  · intro e he
    obtain ⟨w, hw, _⟩ := entry_of_readDocument hread he
    exact withinLimit_of_readEntry hw
  · intro q hq
    obtain ⟨e, he, hqe⟩ := List.mem_filterMap.1 hq
    obtain ⟨w, hw, hdepth⟩ := entry_of_readDocument hread he
    have h1 := depth_of_readEntry hw hqe
    have h2 : v.depth ≤ 127 := scan_depth_le hscan
    -- Four containers stand around the chain, and two inside its last node.
    show q.physicalPlan.steps.length ≤ 121
    omega

theorem PlanNode.withinLimit_iff (n : PlanNode) :
    n.WithinLimit ↔ ∀ s, n.leaf = .source s → s.schema.WithinLimit := by
  induction n with
  | source s =>
    constructor
    · intro h t ht
      cases ht
      exact h
    · intro h
      exact h s rfl
  | step op context input ih => exact ih

theorem PlanDocument.withinLimit_iff (d : PlanDocument) :
    d.WithinLimit ↔ (∀ e ∈ d.plan, e.command.schema.WithinLimit) ∧
      ∀ q ∈ d.queries, ∀ s, q.physicalPlan.leaf = .source s → s.schema.WithinLimit := by
  constructor
  · intro h
    constructor
    · intro e he
      exact (h e he).1
    · intro q hq
      obtain ⟨e, he, hqe⟩ := List.mem_filterMap.1 hq
      exact q.physicalPlan.withinLimit_iff.1 ((h e he).2 q hqe)
  · rintro ⟨hcommands, hqueries⟩ e he
    refine ⟨hcommands e he, ?_⟩
    intro q hq
    exact q.physicalPlan.withinLimit_iff.2 (hqueries q (List.mem_filterMap.2 ⟨e, he, hq⟩))

/-- A document is read back from its text exactly if it is valid, no type in the schema of a
command or of a source has more than 64 levels, and no plan has more than 121 nodes; otherwise
reading fails. -/
theorem PlanDocument.decode_encode_iff (d : PlanDocument) :
    (decode d.encode = .ok d ↔
      d.validate = .ok () ∧
      (∀ e ∈ d.plan, ∀ c ∈ e.command.schema.columns, c.type.depth ≤ 64) ∧
      (∀ q ∈ d.queries, ∀ s, q.physicalPlan.leaf = .source s →
        ∀ c ∈ s.schema.columns, c.type.depth ≤ 64) ∧
      ∀ q ∈ d.queries, q.physicalPlan.steps.length ≤ 121) ∧
    (decode d.encode = .ok d ∨ ∃ fault, decode d.encode = .error fault) := by
  constructor
  · constructor
    · intro h
      obtain ⟨⟨hvalid, hfit, hshort⟩, _⟩ := decode_encode_eq_ok_iff.1 h
      obtain ⟨hcommands, hsources⟩ := d.withinLimit_iff.1 hfit
      exact ⟨hvalid, hcommands, hsources, hshort⟩
    · rintro ⟨hvalid, hcommands, hsources, hshort⟩
      have hfit : d.WithinLimit := d.withinLimit_iff.2 ⟨hcommands, hsources⟩
      exact decode_encode_eq_ok_iff.2 ⟨⟨hvalid, hfit, hshort⟩, rfl⟩
  · cases h : decode d.encode with
    | error fault => exact Or.inr ⟨fault, rfl⟩
    | ok x =>
      obtain ⟨_, rfl⟩ := decode_encode_eq_ok_iff.1 h
      exact Or.inl rfl

/-- What has been read is read again from its own text, and so is written as the same text. -/
theorem PlanDocument.decode_encode_of_decode {text : List UInt8} {d : PlanDocument}
    (h : decode text = .ok d) :
    decode d.encode = .ok d ∧ ∀ x, decode d.encode = .ok x → x.encode = d.encode := by
  have hread : decode d.encode = .ok d :=
    decode_encode_eq_ok_iff.2 ⟨persistable_of_decode h, rfl⟩
  refine ⟨hread, ?_⟩
  intro x hx
  obtain ⟨_, rfl⟩ := decode_encode_eq_ok_iff.1 hx
  rfl

/-- A plan whose query is an array, with nodes that give their tags by index, among spaces, nulls,
members without a meaning and a schema in another spelling. -/
def indexedText : List UInt8 := Text.Utf8.encode <|
  "\x7b\"configs\": \x7b\x7d, \"note\": [1], \"plan\": [\x7b\"statementText\":\"s\"," ++
  "\"@type\":\"ksqlPlanV1\",\"ddlCommand\":\x7b\"@type\":\"createStreamV1\"," ++
  "\"sourceName\":\"S\",\"schema\":\" `X`  date \",\"topicName\":\"s\"," ++
  "\"timestampColumn\":null,\"formats\":[[\"KAFKA\"],[\"JSON\"]]\x7d," ++
  "\"queryPlan\":[[\"A\"],\"S\",\x7b\"@type\":7,\"properties\":[\"K\"]," ++
  "\"source\":\x7b\"@type\":0,\"properties\":[\"A\"],\"topicName\":\"a\"," ++
  "\"formats\":[[\"KAFKA\"],[\"JSON\"]],\"sourceSchema\":\"`X` DATE\"\x7d," ++
  "\"formats\":[[\"KAFKA\"],[\"JSON\"]],\"topicName\":\"s\"\x7d,\"q\"]\x7d]\x7d"

/-- What is read from `indexedText`. -/
def indexedDocument : PlanDocument where
  plan := [{
    statement := "s"
    command := {
      side := .stream, name := "S", schema := ⟨[⟨"X", .simple .date, false⟩], rfl⟩
      topic := "s", formats := ⟨"KAFKA", "JSON"⟩, orReplace := false, timestamp := none }
    query := some {
      sources := ["A"], sink := "S", id := "q"
      physicalPlan :=
        .step (.sink .stream { formats := ⟨"KAFKA", "JSON"⟩, topic := "s", timestamp := none })
          ⟨"K"⟩ <|
        .source {
          kind := .stream, context := ⟨"A"⟩, topic := "a", formats := ⟨"KAFKA", "JSON"⟩
          timestamp := none, schema := ⟨[⟨"X", .simple .date, false⟩], rfl⟩ } } }]
  configs := ConfigSnapshot.empty

set_option maxRecDepth 4000 in
theorem decode_indexedText : PlanDocument.decode indexedText = .ok indexedDocument := by
  rfl

theorem PlanDocument.decode_encode_indexed :
    decode indexedText = .ok indexedDocument ∧
      decode indexedDocument.encode = .ok indexedDocument ∧
      ∀ x, decode indexedDocument.encode = .ok x → x.encode = indexedDocument.encode :=
  ⟨decode_indexedText, decode_encode_of_decode decode_indexedText⟩

/-! ## Two queries in a chain -/

/-- A statement that copies one topic to another. -/
def copyEntry (source sink id : String) : PlanEntry where
  statement := "CREATE STREAM " ++ sink ++ " AS SELECT * FROM " ++ source ++ ";"
  command := {
    side := .stream, name := sink, schema := ⟨[⟨"LINE", .simple .string, false⟩], rfl⟩
    topic := sink, formats := ⟨"KAFKA", "JSON"⟩, orReplace := false, timestamp := none }
  query := some {
    sources := [source], sink := sink, id := id
    physicalPlan :=
      .step (.sink .stream { formats := ⟨"KAFKA", "JSON"⟩, topic := sink, timestamp := none })
        ⟨sink⟩ <|
      .source {
        kind := .stream, context := ⟨"Source"⟩, topic := source, formats := ⟨"KAFKA", "JSON"⟩
        timestamp := none, schema := ⟨[⟨"LINE", .simple .string, false⟩], rfl⟩ } }

/-- Two copies, of which the second reads what the first writes. -/
def relayDocument : PlanDocument :=
  ⟨[copyEntry "a" "b" "q", copyEntry "b" "c" "r"], ConfigSnapshot.empty⟩

theorem copyEntry_withinLimit (source sink id : String) :
    (copyEntry source sink id).WithinLimit := by
  have hschema : (copyEntry source sink id).command.schema.WithinLimit := by
    intro c hc
    obtain rfl : c = ⟨"LINE", .simple .string, false⟩ := List.mem_singleton.1 hc
    decide
  refine ⟨hschema, ?_⟩
  rintro q ⟨⟩
  exact hschema

theorem decode_relayDocument : PlanDocument.decode relayDocument.encode = .ok relayDocument := by
  apply PlanDocument.decode_encode_eq_ok_iff.2
  refine ⟨⟨by decide +kernel, ?_, by decide +kernel⟩, rfl⟩
  intro e he
  rcases List.mem_pair.1 he with rfl | rfl
  · exact copyEntry_withinLimit "a" "b" "q"
  · exact copyEntry_withinLimit "b" "c" "r"

end StandingQuery
