import StandingQuery.Proofs.Plan.Persistence
import StandingQuery.Proofs.Schema.Grammar

/-!
# Schemas, wherever they come from

A schema is made from a list of columns, is read from its text, or stands in a plan that is read.
All three ways lead through the same check, so whoever has a schema can split a record into key
and value and look columns up by name, without asking how the schema was made.

* `LogicalSchema.represents_self`: what can be done with a schema.
* `PlanDocument.text_of_decode`: each schema of a plan is read from a text that stands in the plan.
* `LogicalSchema.represents_of_origin`: which lists of columns make a schema, and what holds of a
  schema that comes about in one of the three ways.
-/

namespace StandingQuery

open Json PlanReader

/-! ## What a schema represents -/

namespace LogicalSchema

/-- A schema stands for columns: it has these columns in this order, those that belong to the key
and after them the others are all of them, and what is found under a name is the one column of that
name. -/
structure Represents (s : LogicalSchema) (columns : List Column) : Prop where
  columns_eq : s.columns = columns
  keys_values : s.keyColumns ++ s.valueColumns = columns
  keys : ∀ c ∈ s.keyColumns, c.isKey = true
  values : ∀ c ∈ s.valueColumns, c.isKey = false
  column?_iff : ∀ name c, s.column? name = some c ↔
    (columns.filter fun d => d.name == name) = [c]

theorem represents_self (s : LogicalSchema) : s.Represents s.columns := by
  obtain ⟨_, hkeys, hdistinct⟩ := firstFault_eq_none_iff.1 s.faultless
  refine ⟨rfl, hkeys.filter_append_filter, ?_, ?_, fun _ _ => find?_eq_some_iff_filter hdistinct⟩
  · intro c hc
    exact (List.mem_filter.1 hc).2
  · intro c hc
    simpa using (List.mem_filter.1 hc).2

end LogicalSchema

/-! ## The schemas of a plan -/

/-- The schema of the source at the end of a chain. -/
def PlanNode.sourceSchema : PlanNode → LogicalSchema
  | source s => s.schema
  | step _ _ input => input.sourceSchema

/-- The schemas of an entry: that of what it creates, and that of what its query reads. -/
def PlanEntry.schemas (e : PlanEntry) : List LogicalSchema :=
  e.command.schema :: (e.query.map fun q => q.physicalPlan.sourceSchema).toList

def PlanDocument.schemas (d : PlanDocument) : List LogicalSchema := d.plan.flatMap PlanEntry.schemas

/-- A value is a part of another: it is that value, or a part of one of its items or members. -/
inductive Json.Value.PartOf (w : Value) : Value → Prop
  | self : PartOf w w
  | item {vs : List Value} {v : Value} (hv : v ∈ vs) (h : PartOf w v) : PartOf w (.array vs)
  | member {ms : List (String × Value)} {k : String} {v : Value} (hv : (k, v) ∈ ms)
      (h : PartOf w v) : PartOf w (.object ms)

namespace PlanReader

variable {place : Place} {v w u : Value} {m : Members} {index : Nat} {name : String}

theorem partOf_of_ofRecord {record : String} (h : Members.ofRecord record v = .ok m)
    (hw : m.given? index name = some w) (hu : u.PartOf w) : u.PartOf v := by
  cases v <;> cases h
  · exact .item (List.mem_of_getElem? hw) hu
  · obtain ⟨before, after, rfl, -⟩ := List.lookup_eq_some_iff.1 hw
    exact .member (List.mem_append_right _ List.mem_cons_self) hu

theorem partOf_of_tagged {tag : Value} (h : tagged? v = some (tag, m))
    (hw : m.given? index name = some w) (hu : u.PartOf w) : u.PartOf v := by
  unfold tagged? at h
  split at h
  · obtain ⟨_, _, he⟩ := Option.map_eq_some_iff.1 h
    cases he
    obtain ⟨before, after, rfl, -⟩ := List.lookup_eq_some_iff.1 hw
    exact .member (List.mem_append_right _ List.mem_cons_self) hu
  · cases h
    exact .item (List.mem_cons_of_mem _ (List.mem_of_getElem? hw)) hu
  · cases h

/-- A schema is read from a text that is a part of a value. -/
def SchemaIn (v : Value) (s : LogicalSchema) : Prop :=
  ∃ text, (Value.string text).PartOf v ∧ LogicalSchema.parse text = .ok s

theorem schemaIn_of_required {s : LogicalSchema}
    (h : (m.slot index name readSchema).value = .ok s) :
    ∃ w, m.given? index name = some w ∧ SchemaIn w s := by
  obtain ⟨w, hw, hread⟩ := required_eq_ok.1 h
  obtain ⟨text, rfl, hparse⟩ := readSchema_eq_ok.1 hread
  exact ⟨_, hw, text, .self, hparse⟩

theorem SchemaIn.of_ofRecord {record : String} {s : LogicalSchema} (hs : SchemaIn w s)
    (h : Members.ofRecord record v = .ok m) (hw : m.given? index name = some w) : SchemaIn v s := by
  obtain ⟨text, hpart, hparse⟩ := hs
  exact ⟨text, partOf_of_ofRecord h hw hpart, hparse⟩

theorem SchemaIn.of_tagged {tag : Value} {s : LogicalSchema} (hs : SchemaIn w s)
    (h : tagged? v = some (tag, m)) (hw : m.given? index name = some w) : SchemaIn v s := by
  obtain ⟨text, hpart, hparse⟩ := hs
  exact ⟨text, partOf_of_tagged h hw hpart, hparse⟩

/-- The schema at the end of a chain is read from a text in the value of the chain. -/
theorem schemaIn_of_readNode {n : PlanNode} (h : readNode place v = .ok n) :
    SchemaIn v n.sourceSchema := by
  induction n generalizing place v with
  | source s =>
    obtain ⟨_, m, hm, _, _, _, hs, _⟩ := readNode_eq_ok.1 h
    obtain ⟨w, hw, hschema⟩ := schemaIn_of_required hs.schema
    exact hschema.of_tagged hm hw
  | step op context input ih =>
    obtain ⟨_, m, hm, _, _, _, hsource, _⟩ := readNode_eq_ok.1 h
    obtain ⟨w, hw, hread⟩ := Option.map_eq_some_iff.1 hsource
    exact (ih hread).of_tagged hm hw

theorem schemaIn_of_readEntry {e : PlanEntry} (h : readEntry place v = .ok e) {s : LogicalSchema}
    (hs : s ∈ e.schemas) : SchemaIn v s := by
  obtain ⟨_, m, hm, _, _, he⟩ := readEntry_eq_ok.1 h
  rcases List.mem_cons.1 hs with rfl | hs
  · obtain ⟨w, hw, hread⟩ := required_eq_ok.1 he.command
    obtain ⟨_, _, hm', _, _, hc⟩ := readCommand_eq_ok.1 hread
    obtain ⟨w', hw', hschema⟩ := schemaIn_of_required hc.schema
    exact (hschema.of_tagged hm' hw').of_tagged hm hw
  · obtain ⟨q, hq, rfl⟩ := Option.map_eq_some_iff.1 (Option.mem_toList.1 hs)
    obtain ⟨w, hw, hread⟩ := query_of_entryFields he hq
    obtain ⟨_, hm', _, hfields⟩ := readQuery_eq_ok.1 hread
    obtain ⟨w', hw', hnode⟩ := required_eq_ok.1 hfields.physicalPlan
    exact ((schemaIn_of_readNode hnode).of_ofRecord hm' hw').of_tagged hm hw

theorem schemaIn_of_readDocument {d : PlanDocument} (h : readDocument v = .ok d)
    {s : LogicalSchema} (hs : s ∈ d.schemas) : SchemaIn v s := by
  obtain ⟨e, he, hs⟩ := List.mem_flatMap.1 hs
  obtain ⟨m, hm, _, hplan, _⟩ := readDocument_eq_ok.1 h
  obtain ⟨_, hp, hread⟩ := required_eq_ok.1 hplan
  obtain ⟨ws, rfl, hws⟩ := readList_eq_ok.1 hread
  obtain ⟨w, hw, hwe⟩ := exists_of_forall₂ hws he
  obtain ⟨text, hpart, hparse⟩ := schemaIn_of_readEntry hwe hs
  exact ⟨text, partOf_of_ofRecord hm hp (.item hw hpart), hparse⟩

end PlanReader

/-- Each schema of a plan that is read is read from a text that stands in the plan. -/
theorem PlanDocument.text_of_decode {bytes : List UInt8} {d : PlanDocument}
    (h : decode bytes = .ok d) {s : LogicalSchema} (hs : s ∈ d.schemas) :
    ∃ v text, scan bytes = .ok v ∧ (Value.string text).PartOf v ∧
      LogicalSchema.parse text = .ok s := by
  obtain ⟨v, hscan, _, hread, _⟩ := decode_eq_ok_iff.1 h
  obtain ⟨text, hpart, hparse⟩ := schemaIn_of_readDocument hread hs
  exact ⟨v, text, hscan, hpart, hparse⟩

/-! ## The three ways -/

namespace LogicalSchema

/-- A list of columns makes a schema exactly if there is a column, no key column comes after a
value column and no name comes twice, and then the schema stands for these columns. A schema that
is read stands for columns that its text spells, and each schema of a plan that is read stands for
columns that a text in the plan spells. -/
theorem represents_of_origin :
    (∀ columns, (∃ s, ofColumns columns = .ok s) ↔
      columns ≠ [] ∧ KeysFirst columns ∧ (columns.map Column.name).Nodup) ∧
    (∀ columns s, ofColumns columns = .ok s → s.Represents columns) ∧
    (∀ text s, parse text = .ok s → ∃ columns, SpelledBy columns text ∧ s.Represents columns) ∧
    ∀ bytes d, PlanDocument.decode bytes = .ok d → ∀ s ∈ d.schemas, ∃ v text columns,
      scan bytes = .ok v ∧ (Value.string text).PartOf v ∧ SpelledBy columns text ∧
        s.Represents columns := by
  refine ⟨fun columns => exists_ofColumns_iff, ?_, ?_, ?_⟩
  · intro columns s hs
    obtain rfl := ofColumns_eq_ok_iff.1 hs
    exact s.represents_self
  · intro text s hs
    exact ⟨s.columns, parse_eq_ok_iff.1 hs, s.represents_self⟩
  · intro bytes d hd s hs
    obtain ⟨v, text, hscan, hpart, hparse⟩ := PlanDocument.text_of_decode hd hs
    exact ⟨v, text, s.columns, hscan, hpart, parse_eq_ok_iff.1 hparse, s.represents_self⟩

end LogicalSchema

end StandingQuery
