import Mathlib.Data.List.Basic
import Mathlib.Order.MinMax
import StandingQuery.Plan.Shape
import StandingQuery.Proofs.EngineVersion
import StandingQuery.Proofs.Tag

/-!
# Shapes of documents

The tags that a document can use are all in the table, so every document has a shape. An engine
version can read the shape if none of the rows that the document uses is newer, and the first
version that can is the one that brought the newest of them.

* `PlanShape.exists_ofDocument`: the rows of a document's shape.
* `PlanShape.isReadableBy_iff`: which versions can read a shape.
* `PlanShape.minimumVersion_of_uses`: the first version that can.
-/

namespace StandingQuery

/-! ## The rows that a document uses -/

/-- A document uses a row of the table if an entry, a command or a node of it has its tag. -/
def PlanDocument.Uses (d : PlanDocument) (row : Tag.Row) : Prop :=
  row ∈ Tag.table ∧ ∃ e ∈ d.plan, row.tag = PlanEntry.tag ∨ row.tag = e.command.tag ∨
    ∃ q, e.query = some q ∧ ∃ n ∈ q.physicalPlan.steps, row.tag = n.tag

/-- The tags of a document are those of its entries, commands and nodes. -/
theorem PlanDocument.mem_tags_iff {d : PlanDocument} {tag : String} :
    tag ∈ d.tags ↔ ∃ e ∈ d.plan, tag = PlanEntry.tag ∨ tag = e.command.tag ∨
      ∃ q, e.query = some q ∧ ∃ n ∈ q.physicalPlan.steps, tag = n.tag := by
  simp only [tags, PlanEntry.tags, List.mem_flatMap, List.mem_cons, List.mem_map,
    Option.mem_toList, @eq_comm _ tag]

/-- The rows that a document uses are those under which its tags are found. -/
theorem PlanDocument.uses_iff {d : PlanDocument} {row : Tag.Row} :
    d.Uses row ↔ ∃ tag ∈ d.tags, Tag.lookup tag = some row := by
  constructor
  · rintro ⟨hrow, htag⟩
    exact ⟨row.tag, mem_tags_iff.2 htag, Tag.lookup_tag row hrow⟩
  · rintro ⟨tag, htag, hlookup⟩
    rw [← Tag.tag_of_lookup hlookup] at htag
    exact ⟨List.mem_of_find?_eq_some hlookup, mem_tags_iff.1 htag⟩

theorem PlanEntry.exists_row (e : PlanEntry) {tag : String} (h : tag ∈ e.tags) :
    ∃ row, Tag.lookup tag = some row := by
  simp only [PlanEntry.tags, List.mem_cons, List.mem_flatMap, List.mem_map] at h
  rcases h with rfl | rfl | ⟨_, _, n, _, rfl⟩
  · exact ⟨_, rfl⟩
  · exact Option.isSome_iff_exists.1 (PlanShape.lookup_commandTag e.command.side)
  · exact Option.isSome_iff_exists.1 (PlanShape.lookup_nodeKind n.kind)

theorem PlanDocument.exists_row (d : PlanDocument) {tag : String} (h : tag ∈ d.tags) :
    ∃ row, Tag.lookup tag = some row := by
  obtain ⟨e, _, htag⟩ := List.mem_flatMap.1 h
  exact e.exists_row htag

namespace PlanShape

/-! ## Collecting rows -/

/-- If all tags are found, their rows are added to those that are there. -/
theorem exists_collect {tags : List String} (htags : ∀ tag ∈ tags, ∃ row, Tag.lookup tag = some row)
    {rows : List Tag.Row} (hrows : ∀ row ∈ rows, Tag.lookup row.tag = some row) :
    ∃ all, collect rows tags = .ok all ∧
      ∀ row, row ∈ all ↔ row ∈ rows ∨ ∃ tag ∈ tags, Tag.lookup tag = some row := by
  induction tags generalizing rows with
  | nil => exact ⟨rows, rfl, by simp⟩
  | cons tag tags ih =>
    obtain ⟨⟨row, hrow⟩, htags⟩ := List.forall_mem_cons.1 htags
    simp only [collect, hrow]
    split
    · rename_i hknown
      obtain ⟨known, hmem, htag⟩ := List.any_eq_true.1 hknown
      -- The table has one row for each tag, so it is this row that is there already.
      have hsame : known = row := by
        have hlookup := hrows known hmem
        rw [beq_iff_eq.1 htag, Tag.lookup_tag_of_lookup hrow] at hlookup
        exact (Option.some.inj hlookup).symm
      obtain ⟨all, hall, hiff⟩ := ih htags hrows
      refine ⟨all, hall, ?_⟩
      intro r
      rw [hiff, List.exists_mem_cons_iff, hrow, Option.some.injEq]
      constructor
      · rintro (hr | hr)
        · exact Or.inl hr
        · exact Or.inr (Or.inr hr)
      · rintro (hr | rfl | hr)
        · exact Or.inl hr
        · exact Or.inl (hsame ▸ hmem)
        · exact Or.inr hr
    · have hrows' : ∀ r ∈ rows ++ [row], Tag.lookup r.tag = some r := by
        intro r hr
        rcases List.mem_append.1 hr with hr | hr
        · exact hrows r hr
        · rw [List.mem_singleton.1 hr]
          exact Tag.lookup_tag_of_lookup hrow
      obtain ⟨all, hall, hiff⟩ := ih htags hrows'
      refine ⟨all, hall, ?_⟩
      intro r
      rw [hiff, List.exists_mem_cons_iff, hrow, Option.some.injEq, List.mem_append,
        List.mem_singleton, or_assoc, @eq_comm _ r]

/-- Every document has a shape, which holds the rows that the document uses. -/
theorem exists_ofDocument (d : PlanDocument) :
    ∃ shape, ofDocument d = .ok shape ∧ ∀ row, row ∈ shape.rows ↔ d.Uses row := by
  have hnone : ∀ row ∈ ([] : List Tag.Row), Tag.lookup row.tag = some row := nofun
  obtain ⟨rows, hrows, hiff⟩ := exists_collect (fun _ => d.exists_row) hnone
  refine ⟨⟨rows⟩, ?_, ?_⟩
  · rw [ofDocument, hrows]
    rfl
  · intro row
    rw [hiff, PlanDocument.uses_iff]
    simp

/-! ## The first version that can read a shape -/

theorem foldl_later_le_iff {rows : List Tag.Row} {v w : EngineVersion} :
    rows.foldl (fun v r => v.later r.since) v ≤ w ↔ v ≤ w ∧ ∀ row ∈ rows, row.since ≤ w := by
  induction rows generalizing v with
  | nil => simp
  | cons r rows ih =>
    rw [List.foldl_cons, ih, EngineVersion.later_eq_max, max_le_iff, and_assoc,
      List.forall_mem_cons]

/-- The latest of some versions is one of them or the one to start from. -/
theorem foldl_later_eq_or_mem (rows : List Tag.Row) (v : EngineVersion) :
    rows.foldl (fun v r => v.later r.since) v = v ∨
      ∃ row ∈ rows, rows.foldl (fun v r => v.later r.since) v = row.since := by
  induction rows generalizing v with
  | nil => exact Or.inl rfl
  | cons r rows ih =>
    rw [List.foldl_cons]
    rcases ih (v.later r.since) with h | ⟨row, hrow, h⟩
    · rw [h]
      rcases v.later_eq_left_or_right r.since with hlater | hlater
      · exact Or.inl hlater
      · exact Or.inr ⟨r, List.mem_cons_self, hlater⟩
    · exact Or.inr ⟨row, List.mem_cons_of_mem _ hrow, h⟩

theorem minimumVersion_le_iff {s : PlanShape} {v : EngineVersion} :
    s.minimumVersion ≤ v ↔ ∀ row ∈ s.rows, row.since ≤ v := by
  rw [minimumVersion, foldl_later_le_iff]
  exact and_iff_right v.zero_le

theorem isReadableBy_iff {s : PlanShape} {v : EngineVersion} :
    s.isReadableBy v = true ↔ ∀ row ∈ s.rows, row.since ≤ v := by
  rw [isReadableBy, EngineVersion.le_eq_true_iff, minimumVersion_le_iff]

theorem isReadableBy_eq_false_iff {s : PlanShape} {v : EngineVersion} :
    s.isReadableBy v = false ↔ v < s.minimumVersion := by
  rw [← not_le, ← EngineVersion.le_eq_true_iff, Bool.not_eq_true]
  rfl

/-- If a version cannot read a shape, the first one that can has brought one of its rows. -/
theorem minimumVersion_mem {s : PlanShape} {v : EngineVersion} (h : v < s.minimumVersion) :
    ∃ row ∈ s.rows, s.minimumVersion = row.since := by
  rcases foldl_later_eq_or_mem s.rows ⟨0, 0, 0⟩ with hzero | hrow
  · rw [minimumVersion, hzero] at h
    exact absurd v.zero_le (not_le.2 h)
  · exact hrow

variable {d : PlanDocument} {shape : PlanShape}

/-- A version that has all rows of a document can read it. -/
theorem isReadableBy_of_uses {v : EngineVersion} (hrows : ∀ row, row ∈ shape.rows ↔ d.Uses row)
    (hknown : ∀ row, d.Uses row → row.since ≤ v) : shape.isReadableBy v = true :=
  isReadableBy_iff.2 fun row hrow => hknown row ((hrows row).1 hrow)

/-- The first version that can read a document is the one that brought its newest row. -/
theorem minimumVersion_of_uses {newest : Tag.Row} (hrows : ∀ row, row ∈ shape.rows ↔ d.Uses row)
    (huses : d.Uses newest) (hnewest : ∀ row, d.Uses row → row.since ≤ newest.since) :
    shape.minimumVersion = newest.since := by
  apply le_antisymm
  · exact minimumVersion_le_iff.2 fun row hrow => hnewest row ((hrows row).1 hrow)
  · exact minimumVersion_le_iff.1 le_rfl newest ((hrows newest).2 huses)

end PlanShape

end StandingQuery
