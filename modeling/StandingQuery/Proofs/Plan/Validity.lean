import Mathlib.Data.List.Nodup
import StandingQuery.Plan.Document
import StandingQuery.Proofs.Except
import StandingQuery.Proofs.Plan.ChangelogTopics

/-!
# Valid documents

Validation goes through the entries of a document once, with what it has seen so far, and stops
at the first fault. It finds none exactly if every query has its place in the document: what it
asks of an entry can be said of the entry, those before it and those after it, without the order
in which they are looked at.

* `PlanNode.checkSteps_cons_iff`, `PlanDocument.checkEntries_cons_iff`: one step of validation.
* `QueryPlan.validate_iff_wellFormed`: which queries are valid by themselves.
* `PlanDocument.validate_iff_inPlace`: which documents are valid.
-/

namespace StandingQuery

/-! ## Plans and queries -/

namespace PlanNode

theorem checkSteps_cons_iff {seen : List String} {depth : Nat} {n : PlanNode}
    {ns : List PlanNode} :
    checkSteps seen depth (n :: ns) = .ok () ↔
      (0 < depth → n.isSink = false) ∧ n.context.path ≠ "" ∧ n.context.path ∉ seen ∧
        checkSteps (n.context.path :: seen) (depth + 1) ns = .ok () := by
  rw [checkSteps]
  split
  · rename_i h
    simp [h.1, h.2]
  · rename_i hsink
    have hsink : 0 < depth → n.isSink = false := by simpa using hsink
    split
    · rename_i hpath
      simp [hpath]
    · rename_i hpath
      split
      · rename_i hseen
        simp [hseen]
      · rename_i hseen
        exact ⟨fun h => ⟨hsink, hpath, hseen, h⟩, fun h => h.2.2.2⟩

/-- Nodes below the root have no fault if none of them is a sink and their contexts are not empty
and different from each other and from those above. -/
theorem checkSteps_succ_iff {seen : List String} {depth : Nat} {ns : List PlanNode} :
    checkSteps seen (depth + 1) ns = .ok () ↔
      (∀ n ∈ ns, n.isSink = false) ∧ (∀ n ∈ ns, n.context.path ≠ "") ∧
        (ns.map fun n => n.context.path).Nodup ∧ ∀ n ∈ ns, n.context.path ∉ seen := by
  induction ns generalizing seen depth with
  | nil => simp [checkSteps]
  | cons n ns ih =>
    rw [checkSteps_cons_iff, ih, List.forall_mem_cons, List.forall_mem_cons, List.forall_mem_cons,
      List.map_cons, List.nodup_cons]
    simp only [List.mem_cons, List.mem_map, not_or, not_exists, not_and]
    constructor
    · rintro ⟨hsink, hpath, hseen, hsinks, hpaths, hnodup, hfresh⟩
      exact ⟨⟨hsink depth.succ_pos, hsinks⟩, ⟨hpath, hpaths⟩, ⟨fun m hm => (hfresh m hm).1, hnodup⟩,
        hseen, fun m hm => (hfresh m hm).2⟩
    · rintro ⟨⟨hsink, hsinks⟩, ⟨hpath, hpaths⟩, ⟨hdistinct, hnodup⟩, hseen, hfresh⟩
      exact ⟨fun _ => hsink, hpath, hseen, hsinks, hpaths, hnodup,
        fun m hm => ⟨hdistinct m hm, hfresh m hm⟩⟩

theorem exists_steps_cons (n : PlanNode) : ∃ below, n.steps = n :: below := by
  cases n with
  | source s => exact ⟨[], rfl⟩
  | step op context input => exact ⟨input.steps, rfl⟩

end PlanNode

namespace QueryPlan

theorem repeatedSource?_eq_none_iff {seen sources : List String} :
    repeatedSource? seen sources = none ↔ sources.Nodup ∧ ∀ s ∈ sources, s ∉ seen := by
  induction sources generalizing seen with
  | nil => simp [repeatedSource?]
  | cons s sources ih =>
    rw [repeatedSource?, List.nodup_cons, List.forall_mem_cons]
    split
    · rename_i hseen
      simp [hseen]
    · rename_i hseen
      rw [ih]
      simp only [List.mem_cons, not_or]
      constructor
      · rintro ⟨hnodup, hfresh⟩
        exact ⟨⟨fun hmem => (hfresh s hmem).1 rfl, hnodup⟩, hseen, fun t ht => (hfresh t ht).2⟩
      · rintro ⟨⟨hnot, hnodup⟩, _, hfresh⟩
        exact ⟨hnodup, fun t ht => ⟨fun heq => hnot (heq ▸ ht), hfresh t ht⟩⟩

/-- A query with an id and with different sources, whose plan has a sink as its root and nowhere
else, and contexts that are not empty and different from each other. -/
structure WellFormed (q : QueryPlan) : Prop where
  id_ne_empty : q.id ≠ ""
  sources_nodup : q.sources.Nodup
  sink_at_root : q.physicalPlan.isSink = true
  no_sink_below : ∀ n ∈ q.physicalPlan.steps.tail, n.isSink = false
  contexts_ne_empty : ∀ n ∈ q.physicalPlan.steps, n.context.path ≠ ""
  contexts_nodup : (q.physicalPlan.steps.map fun n => n.context.path).Nodup

theorem validate_iff_wellFormed {q : QueryPlan} : q.validate = .ok () ↔ q.WellFormed := by
  have hsources : repeatedSource? [] q.sources = none ↔ q.sources.Nodup := by
    rw [repeatedSource?_eq_none_iff]
    simp
  obtain ⟨below, hsteps⟩ := q.physicalPlan.exists_steps_cons
  rw [validate_eq_ok_iff, hsources, hsteps, PlanNode.checkSteps_cons_iff,
    PlanNode.checkSteps_succ_iff]
  simp only [List.mem_singleton]
  constructor
  · rintro ⟨hid, hnodup, hroot, _, hpath, _, hbelow, hpaths, hcontexts, hother⟩
    refine ⟨hid, hnodup, hroot, ?_, ?_, ?_⟩ <;> rw [hsteps]
    · exact hbelow
    · exact List.forall_mem_cons.2 ⟨hpath, hpaths⟩
    · refine List.nodup_cons.2 ⟨?_, hcontexts⟩
      intro hmem
      obtain ⟨n, hn, heq⟩ := List.mem_map.1 hmem
      exact hother n hn heq
  · rintro ⟨hid, hnodup, hroot, hbelow, hpaths, hcontexts⟩
    rw [hsteps] at hbelow hpaths hcontexts
    obtain ⟨hpath, hpaths⟩ := List.forall_mem_cons.1 hpaths
    obtain ⟨hother, hcontexts⟩ := List.nodup_cons.1 hcontexts
    exact ⟨hid, hnodup, hroot, nofun, hpath, nofun, hbelow, hpaths, hcontexts,
      fun n hn heq => hother (List.mem_map.2 ⟨n, hn, heq⟩)⟩

end QueryPlan

/-! ## Documents -/

namespace PlanDocument

/-- The names of the sources that some entries create. -/
def createdBy (es : List PlanEntry) : List String := es.map fun e => e.command.name

/-- The ids of the queries of some entries. -/
def idsOf (es : List PlanEntry) : List String :=
  (es.filterMap PlanEntry.query).map QueryPlan.id

theorem idsOf_cons (e : PlanEntry) (es : List PlanEntry) :
    idsOf (e :: es) = e.query.toList.map QueryPlan.id ++ idsOf es := by
  cases h : e.query <;> simp [idsOf, h]

theorem mem_idsOf {es : List PlanEntry} {id : String} :
    id ∈ idsOf es ↔ ∃ e ∈ es, ∃ q, e.query = some q ∧ q.id = id := by
  simp only [idsOf, List.mem_map, List.mem_filterMap]
  constructor
  · rintro ⟨q, ⟨e, he, hq⟩, hid⟩
    exact ⟨e, he, q, hq, hid⟩
  · rintro ⟨e, he, q, hq, hid⟩
    exact ⟨q, ⟨e, he, hq⟩, hid⟩

/-- What validation asks of the query of an entry, with the names and ids it has seen before. -/
structure Passes (earlier ids : List String) (e : PlanEntry) (after : List PlanEntry)
    (q : QueryPlan) : Prop where
  wellFormed : q.WellFormed
  id_fresh : q.id ∉ ids
  writes : q.sink = e.command.name
  reads : ∀ s ∈ q.sources, s ∈ createdBy (e :: after) → s ∈ earlier

theorem Passes.mono {earlier earlier' ids ids' : List String} {e : PlanEntry}
    {after : List PlanEntry} {q : QueryPlan} (h : Passes earlier ids e after q)
    (hearlier : earlier ⊆ earlier') (hids : ids' ⊆ ids) : Passes earlier' ids' e after q :=
  ⟨h.wellFormed, fun hmem => h.id_fresh (hids hmem), h.writes,
    fun s hs hlater => hearlier (h.reads s hs hlater)⟩

theorem unreadySource?_eq_none_iff {earlier later : List String} {q : QueryPlan} :
    unreadySource? earlier later q = none ↔ ∀ s ∈ q.sources, s ∈ later → s ∈ earlier := by
  simp only [unreadySource?, List.find?_eq_none, decide_eq_true_eq, not_and]
  constructor
  · intro h s hs hlater
    by_contra hnot
    exact h s hs hnot hlater
  · intro h s hs hnot hlater
    exact hnot (h s hs hlater)

theorem checkEntries_cons_iff {earlier ids : List String} {e : PlanEntry} {es : List PlanEntry} :
    checkEntries earlier ids (e :: es) = .ok () ↔
      (∀ q, e.query = some q → Passes earlier ids e es q) ∧
        checkEntries (e.command.name :: earlier) (idsOf [e] ++ ids) es = .ok () := by
  rw [checkEntries, idsOf_cons]
  cases hq : e.query with
  | none => simp [idsOf]
  | some q =>
    have hunready : unreadySource? earlier (e.command.name :: es.map fun e => e.command.name) q =
        none ↔ ∀ s ∈ q.sources, s ∈ createdBy (e :: es) → s ∈ earlier :=
      unreadySource?_eq_none_iff
    constructor
    · intro h
      obtain ⟨⟨⟩, hvalid, h⟩ := bind_eq_ok.1 h
      split at h
      · cases h
      rename_i hid
      split at h
      · cases h
      rename_i hsink
      split at h
      · cases h
      rename_i hready
      refine ⟨?_, h⟩
      rintro _ ⟨⟩
      exact ⟨QueryPlan.validate_iff_wellFormed.1 hvalid, hid, not_not.1 hsink, hunready.1 hready⟩
    · rintro ⟨hpasses, hrest⟩
      obtain ⟨hvalid, hid, hsink, hready⟩ := hpasses q rfl
      refine bind_eq_ok.2 ⟨(), QueryPlan.validate_iff_wellFormed.2 hvalid, ?_⟩
      rw [if_neg hid, if_neg (not_not.2 hsink), hunready.2 hready]
      exact hrest

/-- Entries have no fault if the query of each passes after the entries before it. -/
theorem checkEntries_iff {earlier ids : List String} {es : List PlanEntry} :
    checkEntries earlier ids es = .ok () ↔
      ∀ before e after q, es = before ++ e :: after → e.query = some q →
        Passes (createdBy before ++ earlier) (idsOf before ++ ids) e after q := by
  induction es generalizing earlier ids with
  | nil => simp [checkEntries]
  | cons first es ih =>
    rw [checkEntries_cons_iff, ih]
    constructor
    · rintro ⟨hfirst, hrest⟩ before e after q hes hq
      cases before with
      | nil =>
        cases hes
        exact hfirst q hq
      | cons head before =>
        obtain ⟨rfl, rfl⟩ := List.cons.inj hes
        apply (hrest before e after q rfl hq).mono
        · simp [createdBy]
        · rw [idsOf_cons, idsOf_cons]
          simp [idsOf]
    · intro hall
      refine ⟨fun q hq => hall [] first es q rfl hq, ?_⟩
      rintro before e after q rfl hq
      apply (hall (first :: before) e after q rfl hq).mono
      · simp [createdBy]
      · rw [idsOf_cons, idsOf_cons]
        simp [idsOf]

/-- What is asked of the query of an entry, which comes after some entries and before others:
the query is well-formed, no other query has its id, it writes what its own statement creates,
and it reads nothing that is created here or later only. -/
structure InPlace (before : List PlanEntry) (e : PlanEntry) (after : List PlanEntry)
    (q : QueryPlan) : Prop where
  wellFormed : q.WellFormed
  id_unique : ∀ other ∈ before ++ after, ∀ q', other.query = some q' → q'.id ≠ q.id
  writes : q.sink = e.command.name
  reads : ∀ s ∈ q.sources, (∃ later ∈ e :: after, later.command.name = s) →
    ∃ earlier ∈ before, earlier.command.name = s

/-- A document is valid exactly if the query of each of its entries is in place. -/
theorem validate_iff_inPlace (d : PlanDocument) :
    d.validate = .ok () ↔ ∀ before e after q, d.plan = before ++ e :: after → e.query = some q →
      InPlace before e after q := by
  rw [validate, checkEntries_iff]
  simp only [List.append_nil]
  constructor
  · intro hall before e after q hplan hq
    obtain ⟨hwell, hid, hwrites, hreads⟩ := hall before e after q hplan hq
    refine ⟨hwell, ?_, hwrites, ?_⟩
    · intro other hother q' hq' heq
      rcases List.mem_append.1 hother with hother | hother
      · exact hid (mem_idsOf.2 ⟨other, hother, q', hq', heq⟩)
      · -- The other query comes later, where the id of this one has been seen.
        obtain ⟨mid, rest, rfl⟩ := List.append_of_mem hother
        have hlater := hall (before ++ e :: mid) other rest q' (by simp [hplan]) hq'
        exact hlater.id_fresh (mem_idsOf.2 ⟨e, by simp, q, hq, heq.symm⟩)
    · intro s hs hlater
      exact List.mem_map.1 (hreads s hs (List.mem_map.2 hlater))
  · intro hall before e after q hplan hq
    obtain ⟨hwell, hid, hwrites, hreads⟩ := hall before e after q hplan hq
    refine ⟨hwell, ?_, hwrites, ?_⟩
    · intro hmem
      obtain ⟨other, hother, q', hq', heq⟩ := mem_idsOf.1 hmem
      exact hid other (List.mem_append_left after hother) q' hq' heq
    · intro s hs hlater
      exact List.mem_map.2 (hreads s hs (List.mem_map.1 hlater))

end PlanDocument

end StandingQuery
