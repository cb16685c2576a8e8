import StandingQuery.Proofs.Plan.Validity

/-!
# The chain below a node

The nodes of a chain are found in one way only: from a node one goes to the node that it reads
from, until a node reads from no other. That last node is the leaf. It is a source and has a topic,
and no node before it is or has. So a query always has a topic to read, and one that is valid has a
topic to write too.

* `PlanNode.walk_iff_eq_steps`: the walk from a node is unique.
* `PlanNode.exists_steps_eq_concat_leaf`: its last node, and only that, is a source.
* `QueryPlan.exists_sourceTopic`: a query has a topic to read.
-/

namespace StandingQuery

namespace PlanNode

variable {n m : PlanNode} {ns : List PlanNode}

/-! ## What a node reads -/

/-- Exactly the sources have a topic. -/
theorem isSome_sourceTopic?_iff : n.sourceTopic?.isSome = true ↔ n.isSource = true := by
  cases n <;> simp [sourceTopic?, isSource]

/-! ## Walks -/

/-- A walk along what nodes read, from a node to one that reads from no other. -/
structure Walk (n : PlanNode) (ns : List PlanNode) : Prop where
  start : ns.head? = some n
  next : ns.IsChain fun m below => m.input? = some below
  stop : ∀ m ∈ ns.getLast?, m.input? = none

theorem walk_source_iff {s : TopicSource} : (source s).Walk ns ↔ ns = [source s] := by
  constructor
  · rintro ⟨hstart, hnext, -⟩
    obtain ⟨rest, rfl⟩ := List.head?_eq_some_iff.1 hstart
    cases rest with
    | nil => rfl
    | cons m rest => cases (List.isChain_cons_cons.1 hnext).1
  · rintro rfl
    exact ⟨rfl, .singleton _, fun m hm => by cases hm; rfl⟩

theorem walk_step_iff {op : Operator} {context : QueryContext} {input : PlanNode} :
    (step op context input).Walk ns ↔
      ∃ below, input.Walk below ∧ ns = step op context input :: below := by
  constructor
  · rintro ⟨hstart, hnext, hstop⟩
    obtain ⟨rest, rfl⟩ := List.head?_eq_some_iff.1 hstart
    cases rest with
    | nil => cases hstop _ rfl
    | cons m rest =>
      obtain ⟨hinput, hnext⟩ := List.isChain_cons_cons.1 hnext
      cases hinput
      exact ⟨input :: rest, ⟨rfl, hnext, hstop⟩, rfl⟩
  · rintro ⟨below, ⟨hstart, hnext, hstop⟩, rfl⟩
    obtain ⟨rest, rfl⟩ := List.head?_eq_some_iff.1 hstart
    exact ⟨rfl, List.isChain_cons_cons.2 ⟨rfl, hnext⟩, hstop⟩

/-- There is one walk from a node, along its chain. -/
theorem walk_iff_eq_steps : n.Walk ns ↔ ns = n.steps := by
  induction n generalizing ns with
  | source s => exact walk_source_iff
  | step op context input ih =>
    rw [walk_step_iff]
    simp only [ih, exists_eq_left]
    rfl

/-! ## The leaf -/

theorem isSource_leaf (n : PlanNode) : n.leaf.isSource = true := by
  induction n with
  | source s => rfl
  | step op context input ih => exact ih

theorem exists_sourceTopic_leaf (n : PlanNode) : ∃ topic, n.leaf.sourceTopic? = some topic :=
  Option.isSome_iff_exists.1 (isSome_sourceTopic?_iff.2 n.isSource_leaf)

/-- The chain ends with the leaf, and none of the nodes above it is a source. -/
theorem exists_steps_eq_concat_leaf (n : PlanNode) :
    ∃ above, n.steps = above ++ [n.leaf] ∧ ∀ m ∈ above, m.isSource = false := by
  induction n with
  | source s => exact ⟨[], rfl, List.forall_mem_nil _⟩
  | step op context input ih =>
    obtain ⟨above, hsteps, habove⟩ := ih
    refine ⟨step op context input :: above, congrArg _ hsteps, ?_⟩
    exact List.forall_mem_cons.2 ⟨rfl, habove⟩

end PlanNode

/-! ## Queries -/

theorem QueryPlan.exists_sourceTopic (q : QueryPlan) : ∃ topic, q.sourceTopic? = some topic :=
  q.physicalPlan.exists_sourceTopic_leaf

end StandingQuery
