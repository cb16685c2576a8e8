import StandingQuery.Plan.Writer
import StandingQuery.Proofs.Json.Nesting
import StandingQuery.Proofs.Json.PrintedText

/-!
# The JSON values of written plans

The chain of a plan's nodes is written inside out, each node in a container of the one above,
so the depth of what is written grows with the length of the chain. It grows with nothing else:
around a chain of `n` nodes there are always `n + 6` containers. No part of a plan is written
as a number.

* `PlanNode.depth_toJson`: the depth of a written node.
* `PlanDocument.depth_toJson_le_iff`: a document is too deep if a plan of it is too long.
* `PlanDocument.numberless_toJson`: a document is written without numbers.
-/

namespace StandingQuery

open Json

/-! ## Depths -/

theorem depth_textsToJson (texts : List String) : (textsToJson texts).depth = 1 := by
  have h : Value.depthOfItems (texts.map .string) ≤ 0 :=
    Value.depthOfItems_le_iff.2 fun v hv => by
      obtain ⟨t, _, rfl⟩ := List.mem_map.1 hv
      exact Nat.le_refl _
  simp only [textsToJson, Value.depth]
  omega

theorem Formats.depth_toJson (f : Formats) : f.toJson.depth = 2 := rfl

theorem depthOfMembers_append (ms ns : List (String × Value)) :
    Value.depthOfMembers (ms ++ ns) = max (Value.depthOfMembers ms) (Value.depthOfMembers ns) := by
  induction ms with
  | nil => simp [Value.depthOfMembers]
  | cons m ms ih =>
    obtain ⟨k, v⟩ := m
    simp only [List.cons_append, Value.depthOfMembers, ih, Nat.max_assoc]

theorem depth_optionalMember (name : String) (text : Option String) :
    Value.depthOfMembers (optionalMember name text) = 0 := by
  cases text <;> rfl

theorem Operator.depth_members (op : Operator) : Value.depthOfMembers op.members ≤ 2 := by
  cases op <;>
    simp [Operator.members, Value.depthOfMembers, Value.depth, Formats.depth_toJson,
      depth_textsToJson, depth_optionalMember]

theorem TopicSource.depth_members (s : TopicSource) : Value.depthOfMembers s.members = 2 := by
  obtain ⟨kind, context, topic, formats, timestamp, schema⟩ := s
  cases kind <;>
    simp [TopicSource.members, depthOfMembers_append, Value.depthOfMembers, Value.depth,
      QueryContext.toJson, Formats.depth_toJson, depth_optionalMember, LogicalSchema.toJson]

/-- Each node opens one container, and a source two more. -/
theorem PlanNode.depth_toJson (n : PlanNode) : n.toJson.depth = n.steps.length + 2 := by
  induction n with
  | source s =>
    simp [PlanNode.toJson, Value.depth, Value.depthOfMembers, TopicSource.depth_members,
      PlanNode.steps]
  | step op context input ih =>
    have hop := op.depth_members
    have hc : context.toJson.depth = 1 := rfl
    simp [PlanNode.toJson, Value.depth, Value.depthOfMembers, PlanNode.steps, ih, hc]
    omega

theorem QueryPlan.depth_toJson (q : QueryPlan) :
    q.toJson.depth = q.physicalPlan.steps.length + 3 := by
  simp [QueryPlan.toJson, Value.depth, Value.depthOfMembers, depth_textsToJson,
    PlanNode.depth_toJson]

theorem CreateSource.depth_toJson (c : CreateSource) : c.toJson.depth = 3 := by
  simp [CreateSource.toJson, Value.depth, Value.depthOfMembers, depth_optionalMember,
    Formats.depth_toJson, LogicalSchema.toJson]

/-- The depth of an entry is that of its query, or else of its command. -/
theorem PlanEntry.depth_toJson (e : PlanEntry) :
    e.toJson.depth = (e.query.map fun q => q.physicalPlan.steps.length + 4).getD 4 := by
  cases h : e.query with
  | none => simp [toJson, h, Value.depth, Value.depthOfMembers, CreateSource.depth_toJson]
  | some q =>
    simp [toJson, h, Value.depth, Value.depthOfMembers, CreateSource.depth_toJson,
      QueryPlan.depth_toJson]

theorem ConfigSnapshot.depth_toJson (s : ConfigSnapshot) : s.toJson.depth = 1 := by
  have h : Value.depthOfMembers (s.entries.entries.map fun e => (e.1, nullableToJson e.2)) ≤ 0 :=
    Value.depthOfMembers_le_iff.2 fun m hm => by
      obtain ⟨e, _, rfl⟩ := List.mem_map.1 hm
      cases e.2 <;> simp [nullableToJson, Value.depth]
  simp only [toJson, Value.depth]
  omega

/-- The greatest number of nodes in a plan that can be read back. -/
def maxSteps : Nat := 121

/-- A document is not too deep exactly if none of its plans is too long. -/
theorem PlanDocument.depth_toJson_le_iff (d : PlanDocument) :
    d.toJson.depth ≤ maxDepth ↔ ∀ q ∈ d.queries, q.physicalPlan.steps.length ≤ maxSteps := by
  have hdepth : d.toJson.depth ≤ maxDepth ↔
      Value.depthOfItems (d.plan.map PlanEntry.toJson) ≤ maxDepth - 2 := by
    simp only [toJson, Value.depth, Value.depthOfMembers, ConfigSnapshot.depth_toJson, maxDepth]
    omega
  rw [hdepth, Value.depthOfItems_le_iff]
  simp only [List.forall_mem_map, PlanEntry.depth_toJson, queries, List.mem_filterMap,
    forall_exists_index, and_imp, maxDepth, maxSteps]
  constructor
  · intro h q e he hq
    have := h e he
    rw [hq] at this
    simp only [Option.map_some, Option.getD_some] at this
    omega
  · intro h e he
    cases hq : e.query with
    | none => simp
    | some q =>
      have := h q e he hq
      simp only [Option.map_some, Option.getD_some]
      omega

/-! ## No numbers in written plans -/

open Json.Value

theorem numberless_textsToJson (texts : List String) : (textsToJson texts).Numberless :=
  numberlessItems_iff.2 fun v hv => by
    obtain ⟨t, _, rfl⟩ := List.mem_map.1 hv
    trivial

theorem numberless_optionalMember (name : String) (text : Option String) :
    NumberlessMembers (optionalMember name text) := by
  cases text <;> simp [optionalMember, NumberlessMembers]

theorem numberlessMembers_append {ms ns : List (String × Value)} :
    NumberlessMembers (ms ++ ns) ↔ NumberlessMembers ms ∧ NumberlessMembers ns := by
  simp only [numberlessMembers_iff, List.forall_mem_append]

theorem Formats.numberless_toJson (f : Formats) : f.toJson.Numberless := by
  simp [toJson, formatToJson, NumberlessMembers]

theorem TopicSource.numberless_members (s : TopicSource) : NumberlessMembers s.members := by
  obtain ⟨kind, context, topic, formats, timestamp, schema⟩ := s
  cases kind <;>
    simp [members, numberlessMembers_append, NumberlessMembers, QueryContext.toJson,
      Formats.numberless_toJson, numberless_optionalMember, LogicalSchema.toJson]

theorem Operator.numberless_members (op : Operator) : NumberlessMembers op.members := by
  cases op <;>
    simp [members, NumberlessMembers, Formats.numberless_toJson, numberless_optionalMember,
      numberless_textsToJson]

theorem PlanNode.numberless_toJson (n : PlanNode) : n.toJson.Numberless := by
  induction n with
  | source s => exact ⟨trivial, s.numberless_members⟩
  | step op context input ih =>
    have hc : context.toJson.Numberless := ⟨trivial, trivial⟩
    exact ⟨trivial, hc, ih, op.numberless_members⟩

theorem PlanEntry.numberless_toJson (e : PlanEntry) : e.toJson.Numberless := by
  have hc : e.command.toJson.Numberless := by
    simp [CreateSource.toJson, NumberlessMembers, Formats.numberless_toJson,
      numberless_optionalMember, LogicalSchema.toJson]
  have hq : ∀ q ∈ e.query, q.toJson.Numberless := fun q _ => by
    simp [QueryPlan.toJson, NumberlessMembers, numberless_textsToJson, PlanNode.numberless_toJson]
  cases h : e.query with
  | none => simp [toJson, h, NumberlessMembers, hc]
  | some q => simp [toJson, h, NumberlessMembers, hc, hq q h]

/-- A plan is written without numbers. -/
theorem PlanDocument.numberless_toJson (d : PlanDocument) : d.toJson.Numberless := by
  have hplan : NumberlessItems (d.plan.map PlanEntry.toJson) :=
    numberlessItems_iff.2 (List.forall_mem_map.2 fun e _ => e.numberless_toJson)
  have hconfigs : d.configs.toJson.Numberless :=
    numberlessMembers_iff.2 (List.forall_mem_map.2 fun e _ => by
      cases e.2 <;> simp [nullableToJson])
  exact ⟨hplan, hconfigs, trivial⟩

end StandingQuery
