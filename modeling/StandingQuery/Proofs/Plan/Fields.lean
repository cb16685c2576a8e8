import Mathlib.Tactic.MkIffOfInductiveProp
import StandingQuery.Plan.Reader
import StandingQuery.Proofs.Except

/-!
# What a reader gets out of a value

A record is read if each of its fields has a value and, where it is given as an array, no item
is left over; which error comes first does not matter for that. Each lemma of this module says
so for one record, given in either form, and names the values of the fields.

* `Members.settle_bind`: settling adds nothing to the fields but the count of items.
* `readNode_eq_ok`: a node is read from its tag, its members and the node it reads from.
* `readSource_eq_ok`, `readFilter_eq_ok` and so on: the fields of each kind of node.
-/

namespace StandingQuery.PlanReader

open Json

/-! ## Settling -/

/-- A field is fine if it can be read, or need not be given. -/
def Status.Settled (s : Status) : Prop := s.fault = none ∧ s.missing = false

theorem Slot.settled_of_value {α : Type} {s : Slot α} {x : α} (h : s.value = .ok x) :
    s.status.Settled := by
  rcases Slot.value_eq_ok_iff.1 h with hf | ⟨hf, hd⟩
  · simp [Status.Settled, Slot.status, hf]
  · simp [Status.Settled, Slot.status, hf, hd]

namespace Members

/-- No item is left over after so many fields; an object may have any further members. -/
def AtMost (count : Nat) : Members → Prop
  | named _ => True
  | listed vs => vs.length ≤ count

theorem firstFault_eq_none {statuses : List Status} (h : ∀ s ∈ statuses, s.Settled)
    (ms : List (String × Value)) : firstFault statuses ms = none := by
  apply List.findSome?_eq_none_iff.2
  intro m _
  cases hs : statuses.find? fun s => s.name == m.1 with
  | none => rfl
  | some s => exact (h s (List.mem_of_find?_eq_some hs)).1

theorem firstListedFault_eq_none {statuses : List Status} (h : ∀ s ∈ statuses, s.Settled)
    (record : String) (count index : Nat) :
    firstListedFault record count index statuses = none := by
  induction statuses generalizing index with
  | nil => rfl
  | cons s ss ih =>
    obtain ⟨hfault, hmissing⟩ := h s List.mem_cons_self
    simp only [firstListedFault, hfault, hmissing, Bool.false_eq_true, if_false]
    exact ih (fun t ht => h t (List.mem_cons_of_mem s ht)) (index + 1)

theorem settle_eq_ok_iff {statuses : List Status} (h : ∀ s ∈ statuses, s.Settled)
    (place : Place) (record : String) (m : Members) :
    m.settle place record statuses = .ok () ↔ m.AtMost statuses.length := by
  cases m with
  | named ms =>
    have hmissing : statuses.find? Status.missing = none :=
      List.find?_eq_none.2 fun s hs => by simp [(h s hs).2]
    simp [settle, error?, firstFault_eq_none h, hmissing, AtMost]
  | listed vs =>
    by_cases hl : statuses.length < vs.length
    · have hn : ¬ vs.length ≤ statuses.length := by omega
      simp [settle, error?, firstListedFault_eq_none h, AtMost, hl, hn]
    · have hn : vs.length ≤ statuses.length := by omega
      simp [settle, error?, firstListedFault_eq_none h, AtMost, hl, hn]

/-- If reading the fields means `P`, and `P` gives every field a value, then only the count of
items is left to settle. -/
theorem settle_bind {α : Type} {statuses : List Status} {r : Read α} {y : α} {P : Prop}
    {place : Place} {record : String} {m : Members} (hr : r = .ok y ↔ P)
    (hs : P → ∀ s ∈ statuses, s.Settled) :
    (m.settle place record statuses >>= fun _ => r) = .ok y ↔
      m.AtMost statuses.length ∧ P := by
  rw [bind_eq_ok]
  constructor
  · rintro ⟨⟨⟩, hok, hy⟩
    have hp := hr.1 hy
    exact ⟨(settle_eq_ok_iff (hs hp) place record m).1 hok, hp⟩
  · rintro ⟨hl, hp⟩
    exact ⟨(), (settle_eq_ok_iff (hs hp) place record m).2 hl, hr.2 hp⟩

end Members

/-! ## Tags -/

/-- The tag of a value and the members beside it. -/
def tagged? : Value → Option (Value × Members)
  | .object ms => (ms.lookup "@type").map fun tag => (tag, .named ms)
  | .array (tag :: vs) => some (tag, .listed vs)
  | _ => none

theorem readTagged_eq_ok {κ : Type} {place : Place} {record : String}
    {variants : List (String × κ)} {v : Value} {k : κ} {m : Members} :
    readTagged place record variants v = .ok (k, m) ↔
      ∃ tag, tagged? v = some (tag, m) ∧ readVariant place variants tag = .ok k := by
  unfold readTagged tagged?
  split
  · split
    · rename_i h
      simp [h]
    · rename_i tag h
      simp [h, map_eq_ok, and_comm]
  · simp
  · simp [map_eq_ok, and_comm]
  · simp

theorem tagged_bind {κ α : Type} {place : Place} {record : String}
    {variants : List (String × κ)} {v : Value} {f : κ × Members → Read α} {y : α}
    {P : κ → Members → Prop} (hf : ∀ k m, f (k, m) = .ok y ↔ P k m) :
    (readTagged place record variants v >>= f) = .ok y ↔
      ∃ tag m k, tagged? v = some (tag, m) ∧ readVariant place variants tag = .ok k ∧ P k m := by
  rw [bind_eq_ok]
  constructor
  · rintro ⟨⟨k, m⟩, hr, hy⟩
    obtain ⟨tag, hv, hk⟩ := readTagged_eq_ok.1 hr
    exact ⟨tag, m, k, hv, hk, (hf k m).1 hy⟩
  · rintro ⟨tag, m, k, hv, hk, hp⟩
    exact ⟨(k, m), readTagged_eq_ok.2 ⟨tag, hv, hk⟩, (hf k m).2 hp⟩

/-! ## Formats, contexts and schemas -/

variable {place : Place} {v : Value}

theorem readFormat_eq_ok {name : String} : readFormat place v = .ok name ↔
    ∃ m, Members.ofRecord "FormatInfo" v = .ok m ∧ m.AtMost 1 ∧
      (m.slot 0 "format" readText).value = .ok name := by
  unfold readFormat
  rw [bind_eq_ok]
  refine exists_congr fun m => and_congr_right fun _ => Members.settle_bind Iff.rfl fun h => ?_
  simp [Slot.settled_of_value h]

theorem readFormats_eq_ok {f : Formats} : readFormats place v = .ok f ↔
    ∃ m, Members.ofRecord "Formats" v = .ok m ∧ m.AtMost 2 ∧
      (m.slot 0 "keyFormat" (readFormat place)).value = .ok f.key ∧
      (m.slot 1 "valueFormat" (readFormat place)).value = .ok f.value := by
  unfold readFormats
  rw [bind_eq_ok]
  refine exists_congr fun m => and_congr_right fun _ => Members.settle_bind ?_ fun ⟨hk, hv⟩ => ?_
  · simp only [bind_eq_ok, pure_eq_ok]
    constructor
    · rintro ⟨key, hk, value, hv, rfl⟩
      exact ⟨hk, hv⟩
    · rintro ⟨hk, hv⟩
      exact ⟨_, hk, _, hv, rfl⟩
  · simp [Slot.settled_of_value hk, Slot.settled_of_value hv]

theorem readContext_eq_ok {c : QueryContext} : readContext place v = .ok c ↔
    ∃ m, Members.ofRecord "StepProperties" v = .ok m ∧ m.AtMost 1 ∧
      (m.slot 0 "queryContext" readText).value = .ok c.path := by
  unfold readContext
  rw [bind_eq_ok]
  refine exists_congr fun m => and_congr_right fun _ => Members.settle_bind ?_ fun h => ?_
  · simp only [bind_eq_ok, pure_eq_ok]
    constructor
    · rintro ⟨path, h, rfl⟩
      exact h
    · intro h
      exact ⟨_, h, rfl⟩
  · simp [Slot.settled_of_value h]

theorem readSchema_eq_ok {s : LogicalSchema} : readSchema v = .ok s ↔
    ∃ text, v = .string text ∧ LogicalSchema.parse text = .ok s := by
  unfold readSchema
  rw [bind_eq_ok]
  refine exists_congr fun text => and_congr ?_ mapError_eq_ok
  cases v <;> simp [readText]

/-! ## Commands -/

/-- The fields of a command. -/
@[mk_iff]
structure CommandFields (m : Members) (c : CreateSource) : Prop where
  name : (m.slot 0 "sourceName" readText).value = .ok c.name
  schema : (m.slot 1 "schema" readSchema).value = .ok c.schema
  topic : (m.slot 2 "topicName" readText).value = .ok c.topic
  formats : (m.slot 3 "formats" (readFormats .inner)).value = .ok c.formats
  orReplace : (m.slot 4 "orReplace" readBool (some false)).value = .ok c.orReplace
  timestamp : (m.slot 5 "timestampColumn" (readNullable readText) (some none)).value =
    .ok c.timestamp

theorem readCommand_eq_ok {c : CreateSource} : readCommand place v = .ok c ↔
    ∃ tag m, tagged? v = some (tag, m) ∧ readVariant place commandVariants tag = .ok c.side ∧
      m.AtMost 6 ∧ CommandFields m c := by
  unfold readCommand
  refine (tagged_bind (P := fun side m => m.AtMost 6 ∧ side = c.side ∧ CommandFields m c)
    fun side m => Members.settle_bind ?read fun ⟨_, h⟩ => ?settled).trans ?fold
  case read =>
    simp only [bind_eq_ok, pure_eq_ok]
    constructor
    · rintro ⟨_, h0, _, h1, _, h2, _, h3, _, h4, _, h5, rfl⟩
      exact ⟨rfl, h0, h1, h2, h3, h4, h5⟩
    · rintro ⟨rfl, h0, h1, h2, h3, h4, h5⟩
      exact ⟨_, h0, _, h1, _, h2, _, h3, _, h4, _, h5, rfl⟩
  case settled =>
    simp [Slot.settled_of_value h.name, Slot.settled_of_value h.schema,
      Slot.settled_of_value h.topic, Slot.settled_of_value h.formats,
      Slot.settled_of_value h.orReplace, Slot.settled_of_value h.timestamp]
  case fold =>
    constructor
    · rintro ⟨tag, m, _, hv, hside, hl, rfl, hf⟩
      exact ⟨tag, m, hv, hside, hl, hf⟩
    · rintro ⟨tag, m, hv, hside, hl, hf⟩
      exact ⟨tag, m, c.side, hv, hside, hl, rfl, hf⟩

/-! ## Nodes -/

variable {m : Members} {context : Slot QueryContext} {input : Slot PlanNode} {n : PlanNode}

/-- The fields of a source after its context. -/
structure SourceFields (m : Members) (s : TopicSource) : Prop where
  topic : (m.slot 1 "topicName" readText).value = .ok s.topic
  formats : (m.slot 2 "formats" (readFormats .inner)).value = .ok s.formats
  timestamp : (m.slot 3 "timestampColumn" (readNullable readText) (some none)).value =
    .ok s.timestamp
  schema : (m.slot 4 "sourceSchema" readSchema).value = .ok s.schema

/-- The field that the kind of a source adds, if it adds one. -/
def KindFields (m : Members) : SourceKind → Prop
  | .stream | .table => True
  | .materialized storeFormats =>
    (m.slot 5 "stateStoreFormats" (readFormats .inner)).value = .ok storeFormats

/-- The fields of an operator after its context and the node it reads from. -/
def OperatorFields (m : Members) : Operator → Prop
  | .filter _ expression => (m.slot 2 "filterExpression" readText).value = .ok expression
  | .select _ keyColumns expressions =>
    (m.slot 2 "keyColumnNames" (readList readText)).value = .ok keyColumns ∧
      (m.slot 3 "selectExpressions" (readList readText)).value = .ok expressions
  | .groupByKey formats => (m.slot 2 "internalFormats" (readFormats .inner)).value = .ok formats
  | .aggregate formats passed functions =>
    (m.slot 2 "internalFormats" (readFormats .inner)).value = .ok formats ∧
      (m.slot 3 "nonAggregateColumns" (readList readText)).value = .ok passed ∧
      (m.slot 4 "aggregationFunctions" (readList readText)).value = .ok functions
  | .sink _ target =>
    (m.slot 2 "formats" (readFormats .inner)).value = .ok target.formats ∧
      (m.slot 3 "topicName" readText).value = .ok target.topic ∧
      (m.slot 4 "timestampColumn" (readNullable readText) (some none)).value =
        .ok target.timestamp

/-- The greatest number of fields of a node. -/
def fieldCount : PlanNode → Nat
  | .source ⟨.stream, _, _, _, _, _⟩ | .source ⟨.table, _, _, _, _, _⟩ => 5
  | .source ⟨.materialized _, _, _, _, _, _⟩ => 6
  | .step (.filter _ _) _ _ | .step (.groupByKey _) _ _ => 3
  | .step (.select _ _ _) _ _ => 4
  | .step (.aggregate _ _ _) _ _ | .step (.sink _ _) _ _ => 5

/-- The fields of a node; `source` is what is given for the node it reads from. -/
def NodeFields (m : Members) (source : Option (Read PlanNode)) : PlanNode → Prop
  | .source s =>
    (m.slot 0 "properties" (readContext .inner)).value = .ok s.context ∧ SourceFields m s ∧
      KindFields m s.kind
  | .step op context input =>
    (m.slot 0 "properties" (readContext .inner)).value = .ok context ∧
      source = some (.ok input) ∧ OperatorFields m op

theorem readSource_eq_ok {kind : SourceKind} :
    readSource kind context m = .ok n ↔ m.AtMost 5 ∧ ∃ s, n = .source s ∧ s.kind = kind ∧
      context.value = .ok s.context ∧ SourceFields m s := by
  unfold readSource
  refine Members.settle_bind ?_ fun ⟨s, _, _, hc, h⟩ => ?_
  · simp only [bind_eq_ok, pure_eq_ok]
    constructor
    · rintro ⟨_, h0, _, h1, _, h2, _, h3, _, h4, rfl⟩
      exact ⟨_, rfl, rfl, h0, h1, h2, h3, h4⟩
    · rintro ⟨s, rfl, rfl, h0, h1, h2, h3, h4⟩
      exact ⟨_, h0, _, h1, _, h2, _, h3, _, h4, rfl⟩
  · simp [Slot.settled_of_value hc, Slot.settled_of_value h.topic,
      Slot.settled_of_value h.formats, Slot.settled_of_value h.timestamp,
      Slot.settled_of_value h.schema]

theorem readMaterializedSource_eq_ok :
    readMaterializedSource context m = .ok n ↔ m.AtMost 6 ∧ ∃ s f, n = .source s ∧
      s.kind = .materialized f ∧ context.value = .ok s.context ∧ SourceFields m s ∧
      (m.slot 5 "stateStoreFormats" (readFormats .inner)).value = .ok f := by
  unfold readMaterializedSource
  refine Members.settle_bind ?_ fun ⟨s, f, _, _, hc, h, hf⟩ => ?_
  · simp only [bind_eq_ok, pure_eq_ok]
    constructor
    · rintro ⟨_, h5, _, h0, _, h1, _, h2, _, h3, _, h4, rfl⟩
      exact ⟨_, _, rfl, rfl, h0, ⟨h1, h2, h3, h4⟩, h5⟩
    · rintro ⟨⟨_, c, t, f, ts, sc⟩, _, rfl, rfl, h0, ⟨h1, h2, h3, h4⟩, h5⟩
      exact ⟨_, h5, _, h0, _, h1, _, h2, _, h3, _, h4, rfl⟩
  · simp [Slot.settled_of_value hc, Slot.settled_of_value h.topic,
      Slot.settled_of_value h.formats, Slot.settled_of_value h.timestamp,
      Slot.settled_of_value h.schema, Slot.settled_of_value hf]

/-- The node that an operator makes of its context and of the node it reads from. -/
def StepFields (context : Slot QueryContext) (input : Slot PlanNode) (m : Members)
    (op : Operator) (n : PlanNode) : Prop :=
  ∃ c i, n = .step op c i ∧ context.value = .ok c ∧ input.value = .ok i ∧ OperatorFields m op

theorem readFilter_eq_ok {side : Side} :
    readFilter side context input m = .ok n ↔
      m.AtMost 3 ∧ ∃ e, StepFields context input m (.filter side e) n := by
  unfold readFilter
  refine Members.settle_bind ?_ fun ⟨e, c, i, _, hc, hi, he⟩ => ?_
  · simp only [bind_eq_ok, pure_eq_ok]
    constructor
    · rintro ⟨e, he, c, hc, i, hi, rfl⟩
      exact ⟨e, c, i, rfl, hc, hi, he⟩
    · rintro ⟨e, c, i, rfl, hc, hi, he⟩
      exact ⟨e, he, c, hc, i, hi, rfl⟩
  · simp [Slot.settled_of_value hc, Slot.settled_of_value hi, Slot.settled_of_value he]

theorem readSelect_eq_ok {side : Side} :
    readSelect side context input m = .ok n ↔
      m.AtMost 4 ∧ ∃ ks es, StepFields context input m (.select side ks es) n := by
  unfold readSelect
  refine Members.settle_bind ?_ fun ⟨ks, es, c, i, _, hc, hi, hk, he⟩ => ?_
  · simp only [bind_eq_ok, pure_eq_ok]
    constructor
    · rintro ⟨ks, hk, es, he, c, hc, i, hi, rfl⟩
      exact ⟨ks, es, c, i, rfl, hc, hi, hk, he⟩
    · rintro ⟨ks, es, c, i, rfl, hc, hi, hk, he⟩
      exact ⟨ks, hk, es, he, c, hc, i, hi, rfl⟩
  · simp [Slot.settled_of_value hc, Slot.settled_of_value hi, Slot.settled_of_value hk,
      Slot.settled_of_value he]

theorem readGroupByKey_eq_ok :
    readGroupByKey context input m = .ok n ↔
      m.AtMost 3 ∧ ∃ f, StepFields context input m (.groupByKey f) n := by
  unfold readGroupByKey
  refine Members.settle_bind ?_ fun ⟨f, c, i, _, hc, hi, hf⟩ => ?_
  · simp only [bind_eq_ok, pure_eq_ok]
    constructor
    · rintro ⟨f, hf, c, hc, i, hi, rfl⟩
      exact ⟨f, c, i, rfl, hc, hi, hf⟩
    · rintro ⟨f, c, i, rfl, hc, hi, hf⟩
      exact ⟨f, hf, c, hc, i, hi, rfl⟩
  · simp [Slot.settled_of_value hc, Slot.settled_of_value hi, Slot.settled_of_value hf]

theorem readAggregate_eq_ok :
    readAggregate context input m = .ok n ↔
      m.AtMost 5 ∧ ∃ f ps gs, StepFields context input m (.aggregate f ps gs) n := by
  unfold readAggregate
  refine Members.settle_bind ?_ fun ⟨f, ps, gs, c, i, _, hc, hi, hf, hp, hg⟩ => ?_
  · simp only [bind_eq_ok, pure_eq_ok]
    constructor
    · rintro ⟨f, hf, ps, hp, gs, hg, c, hc, i, hi, rfl⟩
      exact ⟨f, ps, gs, c, i, rfl, hc, hi, hf, hp, hg⟩
    · rintro ⟨f, ps, gs, c, i, rfl, hc, hi, hf, hp, hg⟩
      exact ⟨f, hf, ps, hp, gs, hg, c, hc, i, hi, rfl⟩
  · simp [Slot.settled_of_value hc, Slot.settled_of_value hi, Slot.settled_of_value hf,
      Slot.settled_of_value hp, Slot.settled_of_value hg]

theorem readSink_eq_ok {side : Side} :
    readSink side context input m = .ok n ↔
      m.AtMost 5 ∧ ∃ target, StepFields context input m (.sink side target) n := by
  unfold readSink
  refine Members.settle_bind ?_ fun ⟨target, c, i, _, hc, hi, hf, ht, hs⟩ => ?_
  · simp only [bind_eq_ok, pure_eq_ok]
    constructor
    · rintro ⟨f, hf, t, ht, s, hs, c, hc, i, hi, rfl⟩
      exact ⟨⟨f, t, s⟩, c, i, rfl, hc, hi, hf, ht, hs⟩
    · rintro ⟨⟨f, t, s⟩, c, i, rfl, hc, hi, hf, ht, hs⟩
      exact ⟨f, hf, t, ht, s, hs, c, hc, i, hi, rfl⟩
  · simp [Slot.settled_of_value hc, Slot.settled_of_value hi, Slot.settled_of_value hf,
      Slot.settled_of_value ht, Slot.settled_of_value hs]

theorem sourceSlot_eq_ok {source : Option (Read PlanNode)} {i : PlanNode} :
    (Slot.mk "source" source none).value = .ok i ↔ source = some (.ok i) := by
  simp [Slot.value_eq_ok_iff]

/-- A node is read from a tag of its kind and its fields. -/
theorem readBody_eq_ok {kind : NodeKind} {source : Option (Read PlanNode)} :
    readBody kind m source = .ok n ↔
      n.kind = kind ∧ m.AtMost (fieldCount n) ∧ NodeFields m source n := by
  constructor
  · intro h
    cases kind with
    | streamSource =>
      obtain ⟨hl, ⟨k, c, t, f, ts, sc⟩, rfl, rfl, hc, hf⟩ := readSource_eq_ok.1 h
      exact ⟨rfl, hl, hc, hf, trivial⟩
    | tableSource =>
      obtain ⟨hl, ⟨k, c, t, f, ts, sc⟩, rfl, rfl, hc, hf⟩ := readSource_eq_ok.1 h
      exact ⟨rfl, hl, hc, hf, trivial⟩
    | tableSourceV2 =>
      obtain ⟨hl, ⟨k, c, t, f, ts, sc⟩, _, rfl, rfl, hc, hf, hs⟩ :=
        readMaterializedSource_eq_ok.1 h
      exact ⟨rfl, hl, hc, hf, hs⟩
    | streamFilter =>
      obtain ⟨hl, e, c, i, rfl, hc, hi, hf⟩ := readFilter_eq_ok.1 h
      exact ⟨rfl, hl, hc, sourceSlot_eq_ok.1 hi, hf⟩
    | tableFilter =>
      obtain ⟨hl, e, c, i, rfl, hc, hi, hf⟩ := readFilter_eq_ok.1 h
      exact ⟨rfl, hl, hc, sourceSlot_eq_ok.1 hi, hf⟩
    | streamSelect =>
      obtain ⟨hl, ks, es, c, i, rfl, hc, hi, hf⟩ := readSelect_eq_ok.1 h
      exact ⟨rfl, hl, hc, sourceSlot_eq_ok.1 hi, hf⟩
    | tableSelect =>
      obtain ⟨hl, ks, es, c, i, rfl, hc, hi, hf⟩ := readSelect_eq_ok.1 h
      exact ⟨rfl, hl, hc, sourceSlot_eq_ok.1 hi, hf⟩
    | streamGroupByKey =>
      obtain ⟨hl, f, c, i, rfl, hc, hi, hf⟩ := readGroupByKey_eq_ok.1 h
      exact ⟨rfl, hl, hc, sourceSlot_eq_ok.1 hi, hf⟩
    | streamAggregate =>
      obtain ⟨hl, f, ps, gs, c, i, rfl, hc, hi, hf⟩ := readAggregate_eq_ok.1 h
      exact ⟨rfl, hl, hc, sourceSlot_eq_ok.1 hi, hf⟩
    | streamSink =>
      obtain ⟨hl, target, c, i, rfl, hc, hi, hf⟩ := readSink_eq_ok.1 h
      exact ⟨rfl, hl, hc, sourceSlot_eq_ok.1 hi, hf⟩
    | tableSink =>
      obtain ⟨hl, target, c, i, rfl, hc, hi, hf⟩ := readSink_eq_ok.1 h
      exact ⟨rfl, hl, hc, sourceSlot_eq_ok.1 hi, hf⟩
  · rintro ⟨rfl, hl, hn⟩
    cases n with
    | source s =>
      obtain ⟨kind, c, t, f, ts, sc⟩ := s
      obtain ⟨hc, hf, hk⟩ := hn
      cases kind with
      | stream => exact readSource_eq_ok.2 ⟨hl, _, rfl, rfl, hc, hf⟩
      | table => exact readSource_eq_ok.2 ⟨hl, _, rfl, rfl, hc, hf⟩
      | materialized store =>
        exact readMaterializedSource_eq_ok.2 ⟨hl, _, store, rfl, rfl, hc, hf, hk⟩
    | step op c i =>
      obtain ⟨hc, hi, hf⟩ := hn
      have hstep : StepFields (m.slot 0 "properties" (readContext .inner))
          ⟨"source", source, none⟩ m op (.step op c i) :=
        ⟨c, i, rfl, hc, sourceSlot_eq_ok.2 hi, hf⟩
      cases op with
      | filter side e => cases side <;> exact readFilter_eq_ok.2 ⟨hl, e, hstep⟩
      | select side ks es => cases side <;> exact readSelect_eq_ok.2 ⟨hl, ks, es, hstep⟩
      | groupByKey f => exact readGroupByKey_eq_ok.2 ⟨hl, f, hstep⟩
      | aggregate f ps gs => exact readAggregate_eq_ok.2 ⟨hl, f, ps, gs, hstep⟩
      | sink side target => cases side <;> exact readSink_eq_ok.2 ⟨hl, target, hstep⟩

/-- A node is read from its tag, its fields and the node that stands in `source`. -/
theorem readNode_eq_ok : readNode place v = .ok n ↔
    ∃ tag m, tagged? v = some (tag, m) ∧ readVariant place nodeVariants tag = .ok n.kind ∧
      m.AtMost (fieldCount n) ∧
      NodeFields m ((m.given? 1 "source").map (readNode .inner)) n := by
  have key : readNode place v = (readTagged place "PhysicalPlanNode" nodeVariants v >>= fun p =>
      readBody p.1 p.2 ((p.2.given? 1 "source").map (readNode .inner))) := by
    cases v with
    | object ms =>
      rw [readNode, readSourceMember_eq]
      cases htag : ms.lookup "@type" with
      | none =>
        simp only [readTagged, htag]
        rfl
      | some tag =>
        simp only [readTagged, htag]
        cases readVariant place nodeVariants tag <;> rfl
    | array vs =>
      rw [readNode, readSourceItem_eq]
      cases vs with
      | nil => rfl
      | cons tag vs =>
        simp only [readTagged]
        cases readVariant place nodeVariants tag <;> rfl
    | _ => rfl
  rw [key]
  refine (tagged_bind fun kind m => readBody_eq_ok).trans ?_
  constructor
  · rintro ⟨tag, m, _, hv, hk, rfl, hl, hn⟩
    exact ⟨tag, m, hv, hk, hl, hn⟩
  · rintro ⟨tag, m, hv, hk, hl, hn⟩
    exact ⟨tag, m, n.kind, hv, hk, rfl, hl, hn⟩

/-! ## Queries, entries and documents -/

/-- The fields of a query. -/
@[mk_iff]
structure QueryFields (place : Place) (m : Members) (q : QueryPlan) : Prop where
  sources : (m.slot 0 "sources" (readList readText)).value = .ok q.sources
  sink : (m.slot 1 "sink" readText).value = .ok q.sink
  physicalPlan : (m.slot 2 "physicalPlan" (readNode place)).value = .ok q.physicalPlan
  id : (m.slot 3 "queryId" readText).value = .ok q.id

theorem readQuery_eq_ok {q : QueryPlan} : readQuery place v = .ok q ↔
    ∃ m, Members.ofRecord "QueryPlan" v = .ok m ∧ m.AtMost 4 ∧ QueryFields place m q := by
  unfold readQuery
  rw [bind_eq_ok]
  refine exists_congr fun m => and_congr_right fun _ => Members.settle_bind ?_ fun h => ?_
  · simp only [bind_eq_ok, pure_eq_ok]
    constructor
    · rintro ⟨_, h0, _, h1, _, h2, _, h3, rfl⟩
      exact ⟨h0, h1, h2, h3⟩
    · rintro ⟨h0, h1, h2, h3⟩
      exact ⟨_, h0, _, h1, _, h2, _, h3, rfl⟩
  · simp [Slot.settled_of_value h.sources, Slot.settled_of_value h.sink,
      Slot.settled_of_value h.physicalPlan, Slot.settled_of_value h.id]

/-- The fields of an entry. -/
@[mk_iff]
structure EntryFields (m : Members) (e : PlanEntry) : Prop where
  statement : (m.slot 0 "statementText" readText).value = .ok e.statement
  command : (m.slot 1 "ddlCommand" (readCommand .inner)).value = .ok e.command
  query : (m.slot 2 "queryPlan" (readNullable (readQuery .inner)) (some none)).value =
    .ok e.query

theorem readEntry_eq_ok {e : PlanEntry} : readEntry place v = .ok e ↔
    ∃ tag m, tagged? v = some (tag, m) ∧
      readVariant place [(PlanEntry.tag, ())] tag = .ok () ∧ m.AtMost 3 ∧ EntryFields m e := by
  unfold readEntry
  refine (tagged_bind (P := fun _ m => m.AtMost 3 ∧ EntryFields m e)
    fun _ m => Members.settle_bind ?read fun h => ?settled).trans ?fold
  case read =>
    simp only [bind_eq_ok, pure_eq_ok]
    constructor
    · rintro ⟨_, h0, _, h1, _, h2, rfl⟩
      exact ⟨h0, h1, h2⟩
    · rintro ⟨h0, h1, h2⟩
      exact ⟨_, h0, _, h1, _, h2, rfl⟩
  case settled =>
    simp [Slot.settled_of_value h.statement, Slot.settled_of_value h.command,
      Slot.settled_of_value h.query]
  case fold =>
    constructor
    · rintro ⟨tag, m, ⟨⟩, hv, ht, hl, hf⟩
      exact ⟨tag, m, hv, ht, hl, hf⟩
    · rintro ⟨tag, m, hv, ht, hl, hf⟩
      exact ⟨tag, m, (), hv, ht, hl, hf⟩

theorem readDocument_eq_ok {d : PlanDocument} : readDocument v = .ok d ↔
    ∃ m, Members.ofRecord "PlanDocument" v = .ok m ∧ m.AtMost 2 ∧
      (m.slot 0 "plan" (readList (readEntry .outer))).value = .ok d.plan ∧
      (m.slot 1 "configs" readConfigs).value = .ok d.configs := by
  unfold readDocument
  rw [bind_eq_ok]
  refine exists_congr fun m => and_congr_right fun _ => Members.settle_bind ?_ fun ⟨hp, hc⟩ => ?_
  · simp only [bind_eq_ok, pure_eq_ok]
    constructor
    · rintro ⟨_, hp, _, hc, rfl⟩
      exact ⟨hp, hc⟩
    · rintro ⟨hp, hc⟩
      exact ⟨_, hp, _, hc, rfl⟩
  · simp [Slot.settled_of_value hp, Slot.settled_of_value hc]

theorem readList_eq_ok {α : Type} {read : Value → Read α} {xs : List α} :
    readList read v = .ok xs ↔
      ∃ vs, v = .array vs ∧ List.Forall₂ (fun w x => read w = .ok x) vs xs := by
  cases v <;> simp [readList, mapM_eq_ok]

theorem readNullable_eq_ok {α : Type} {read : Value → Read α} {x : Option α} :
    readNullable read v = .ok x ↔
      v = .null ∧ none = x ∨ v ≠ .null ∧ ∃ y, read v = .ok y ∧ some y = x := by
  cases v <;> simp [readNullable, map_eq_ok]

end StandingQuery.PlanReader
