import Mathlib.Order.Bounds.Basic
import StandingQuery.Proofs.Except
import StandingQuery.Proofs.Plan.Shapes

/-!
# The tags of a shape

A shape lists the tags of its document, each once, in the order in which they first occur. Each
tag that is collected is either known by then or is put last, so what has been collected lists the
tags that have been seen, at every point. Shapes of documents that are put one after the other
follow from this alone: a list is determined by what it lists.

* `FirstOccurrences.append`, `FirstOccurrences.eq`: two lists after each other, and why there is
  only one list of first occurrences.
* `PlanShape.firstOccurrences_collect`: what collecting keeps.
* `PlanShape.tells_tags`: what the shape of a document tells.
-/

namespace StandingQuery

/-! ## First occurrences -/

/-- A list has the members of another one, each once, in the order in which they first occur
there. -/
structure FirstOccurrences (all firsts : List String) : Prop where
  mem : ∀ x, x ∈ firsts ↔ x ∈ all
  order : firsts.Pairwise fun x y => all.idxOf x < all.idxOf y

namespace FirstOccurrences

variable {all all' firsts firsts' : List String}

theorem nil : FirstOccurrences [] [] := ⟨fun _ => Iff.rfl, List.Pairwise.nil⟩

theorem singleton (x : String) : FirstOccurrences [x] [x] :=
  ⟨fun _ => Iff.rfl, List.pairwise_singleton _ x⟩

theorem nodup (h : FirstOccurrences all firsts) : firsts.Nodup := by
  apply h.order.imp
  rintro x y hlt rfl
  exact Nat.lt_irrefl _ hlt

/-- Of a second list, the members are listed that have not occurred in the first. -/
theorem append (h : FirstOccurrences all firsts) (h' : FirstOccurrences all' firsts') :
    FirstOccurrences (all ++ all') (firsts ++ firsts'.filter fun x => x ∉ firsts) := by
  constructor
  · intro x
    simp only [List.mem_append, List.mem_filter, decide_eq_true_eq, h.mem, h'.mem]
    by_cases hx : x ∈ all
    · simp [hx]
    · simp [hx]
  · have hnew : ∀ y ∈ firsts'.filter (fun x => x ∉ firsts),
        (all ++ all').idxOf y = all.length + all'.idxOf y := by
      intro y hy
      apply List.idxOf_append_of_notMem
      simpa [h.mem] using (List.mem_filter.1 hy).2
    rw [List.pairwise_append]
    refine ⟨?_, ?_, ?_⟩
    · apply h.order.imp_of_mem
      intro x y hx hy hlt
      rwa [List.idxOf_append_of_mem ((h.mem x).1 hx), List.idxOf_append_of_mem ((h.mem y).1 hy)]
    · apply (h'.order.filter _).imp_of_mem
      intro x y hx hy hlt
      rw [hnew x hx, hnew y hy]
      omega
    · intro x hx y hy
      have hx' : x ∈ all := (h.mem x).1 hx
      have hlt := List.idxOf_lt_length_iff.2 hx'
      rw [List.idxOf_append_of_mem hx', hnew y hy]
      omega

/-- There is only one list of first occurrences. -/
theorem eq (h : FirstOccurrences all firsts) (h' : FirstOccurrences all firsts') :
    firsts = firsts' := by
  apply List.Perm.eq_of_pairwise _ h.order h'.order
  · apply (List.perm_ext_iff_of_nodup h.nodup h'.nodup).2
    intro x
    rw [h.mem, h'.mem]
  · intro x y _ _ hlt hgt
    omega

end FirstOccurrences

/-! ## Tags of documents -/

namespace PlanDocument

variable {d d' : PlanDocument}

theorem tags_append (configs : ConfigSnapshot) :
    tags ⟨d.plan ++ d'.plan, configs⟩ = d.tags ++ d'.tags :=
  List.flatMap_append

theorem uses_append_iff {configs : ConfigSnapshot} {row : Tag.Row} :
    Uses ⟨d.plan ++ d'.plan, configs⟩ row ↔ d.Uses row ∨ d'.Uses row := by
  simp only [uses_iff, tags_append, List.mem_append, or_and_right, exists_or]

end PlanDocument

/-! ## Collecting tags -/

namespace PlanShape

variable {d d' : PlanDocument} {shape shape' joint : PlanShape} {v : EngineVersion}

/-- If the tags of the rows that are there are those that have been seen, this is so again after
more tags have been collected. -/
theorem firstOccurrences_collect {seen tags : List String} {rows all : List Tag.Row}
    (h : FirstOccurrences seen (rows.map Tag.Row.tag)) (hall : collect rows tags = .ok all) :
    FirstOccurrences (seen ++ tags) (all.map Tag.Row.tag) := by
  induction tags generalizing seen rows with
  | nil =>
    cases hall
    rwa [List.append_nil]
  | cons tag tags ih =>
    have hnext := h.append (.singleton tag)
    rw [List.append_cons]
    simp only [collect] at hall
    split at hall
    · cases hall
    · rename_i row hrow
      rw [← Tag.tag_of_lookup hrow] at hnext ⊢
      split at hall
      · rename_i hknown
        have hmem : row.tag ∈ rows.map Tag.Row.tag := by
          simpa [List.any_eq_true] using hknown
        apply ih _ hall
        rwa [List.filter_singleton, decide_eq_false (not_not.2 hmem), cond_false,
          List.append_nil] at hnext
      · rename_i hnew
        have hmem : row.tag ∉ rows.map Tag.Row.tag := by
          simpa [List.any_eq_true] using hnew
        apply ih _ hall
        rw [List.map_append]
        rwa [List.filter_singleton, decide_eq_true hmem, cond_true] at hnext

theorem firstOccurrences_tags (h : ofDocument d = .ok shape) :
    FirstOccurrences d.tags shape.tags := by
  obtain ⟨rows, hrows, rfl⟩ := map_eq_ok.1 h
  exact firstOccurrences_collect .nil hrows

/-! ## Versions -/

theorem mem_rows_iff (h : ofDocument d = .ok shape) (row : Tag.Row) :
    row ∈ shape.rows ↔ d.Uses row := by
  obtain ⟨_, hshape, hrows⟩ := exists_ofDocument d
  obtain rfl := Except.ok.inj (hshape.symm.trans h)
  exact hrows row

/-- The versions from the first that can read a document on are those that have all its tags. -/
theorem minimumVersion_le_iff_tags (h : ofDocument d = .ok shape) :
    shape.minimumVersion ≤ v ↔
      ∀ tag ∈ shape.tags, ∃ row ∈ Tag.table, row.tag = tag ∧ row.since ≤ v := by
  rw [minimumVersion_le_iff]
  constructor
  · intro hall tag htag
    obtain ⟨row, hrow⟩ := d.exists_row (((firstOccurrences_tags h).mem tag).1 htag)
    have huses : d.Uses row :=
      PlanDocument.uses_iff.2 ⟨tag, ((firstOccurrences_tags h).mem tag).1 htag, hrow⟩
    exact ⟨row, List.mem_of_find?_eq_some hrow, Tag.tag_of_lookup hrow,
      hall row ((mem_rows_iff h row).2 huses)⟩
  · intro hall row hrow
    obtain ⟨tag, htag, hlookup⟩ := PlanDocument.uses_iff.1 ((mem_rows_iff h row).1 hrow)
    obtain ⟨row', hmem, rfl, hle⟩ := hall tag (((firstOccurrences_tags h).mem tag).2 htag)
    obtain rfl := Option.some.inj ((Tag.lookup_tag row' hmem).symm.trans hlookup)
    exact hle

theorem minimumVersion_of_nil (h : ofDocument d = .ok shape) (hnil : d.plan = []) :
    shape.minimumVersion = ⟨0, 0, 0⟩ := by
  apply le_antisymm
  · rw [minimumVersion_le_iff]
    intro row hrow
    obtain ⟨_, e, he, _⟩ := (mem_rows_iff h row).1 hrow
    rw [hnil] at he
    cases he
  · exact EngineVersion.zero_le _

/-! ## Documents one after the other -/

section

variable {configs : ConfigSnapshot}

theorem minimumVersion_of_append (h : ofDocument d = .ok shape) (h' : ofDocument d' = .ok shape')
    (hjoint : ofDocument ⟨d.plan ++ d'.plan, configs⟩ = .ok joint) :
    joint.minimumVersion = max shape.minimumVersion shape'.minimumVersion := by
  have hle : ∀ v, joint.minimumVersion ≤ v ↔
      max shape.minimumVersion shape'.minimumVersion ≤ v := by
    intro v
    simp only [max_le_iff, minimumVersion_le_iff, mem_rows_iff h, mem_rows_iff h',
      mem_rows_iff hjoint, PlanDocument.uses_append_iff, or_imp, forall_and]
  exact le_antisymm ((hle _).2 le_rfl) ((hle _).1 le_rfl)

theorem tags_of_append (h : ofDocument d = .ok shape) (h' : ofDocument d' = .ok shape')
    (hjoint : ofDocument ⟨d.plan ++ d'.plan, configs⟩ = .ok joint) :
    joint.tags = shape.tags ++ shape'.tags.filter fun tag => tag ∉ shape.tags := by
  have hfirsts := firstOccurrences_tags hjoint
  rw [PlanDocument.tags_append] at hfirsts
  exact hfirsts.eq ((firstOccurrences_tags h).append (firstOccurrences_tags h'))

end

/-- Every document has a shape. It lists the tags of the entries, commands and nodes of the
document, each once, in the order in which they first occur. A version can read it if none of
these tags is newer, and the first that can is the least such version. The shape of two documents
one after the other lists the tags of the first and then those that are new in the second, and the
later of the two versions is needed. -/
theorem tells_tags (d : PlanDocument) :
    ∃ shape, ofDocument d = .ok shape ∧
      (∀ tag, tag ∈ shape.tags ↔ ∃ e ∈ d.plan, tag = "ksqlPlanV1" ∨ tag = e.command.tag ∨
        ∃ q, e.query = some q ∧ ∃ n ∈ q.physicalPlan.steps, tag = n.tag) ∧
      shape.tags.Nodup ∧
      (let all := d.plan.flatMap fun e => "ksqlPlanV1" :: e.command.tag ::
          e.query.toList.flatMap fun q => q.physicalPlan.steps.map PlanNode.tag
       shape.tags.Pairwise fun tag tag' => all.idxOf tag < all.idxOf tag') ∧
      (∀ v, shape.isReadableBy v = true ↔
        ∀ tag ∈ shape.tags, ∃ row ∈ Tag.table, row.tag = tag ∧ row.since ≤ v) ∧
      IsLeast {v | ∀ tag ∈ shape.tags, ∃ row ∈ Tag.table, row.tag = tag ∧ row.since ≤ v}
        shape.minimumVersion ∧
      (d.plan = [] → shape.minimumVersion = ⟨0, 0, 0⟩) ∧
      ∀ d' configs, ∃ shape' joint, ofDocument d' = .ok shape' ∧
        ofDocument ⟨d.plan ++ d'.plan, configs⟩ = .ok joint ∧
        joint.minimumVersion = max shape.minimumVersion shape'.minimumVersion ∧
        joint.tags = shape.tags ++ shape'.tags.filter fun tag => tag ∉ shape.tags := by
  obtain ⟨shape, hshape, _⟩ := exists_ofDocument d
  have hfirsts := firstOccurrences_tags hshape
  refine ⟨shape, hshape, ?_, hfirsts.nodup, hfirsts.order, ?_, ⟨?_, ?_⟩,
    minimumVersion_of_nil hshape, ?_⟩
  · intro tag
    rw [hfirsts.mem, PlanDocument.mem_tags_iff]
    rfl
  · intro v
    rw [isReadableBy, EngineVersion.le_eq_true_iff, minimumVersion_le_iff_tags hshape]
  · exact (minimumVersion_le_iff_tags hshape).1 le_rfl
  · intro v hv
    exact (minimumVersion_le_iff_tags hshape).2 hv
  · intro d' configs
    obtain ⟨shape', hshape', _⟩ := exists_ofDocument d'
    obtain ⟨joint, hjoint, _⟩ := exists_ofDocument ⟨d.plan ++ d'.plan, configs⟩
    exact ⟨shape', joint, hshape', hjoint, minimumVersion_of_append hshape hshape' hjoint,
      tags_of_append hshape hshape' hjoint⟩

end PlanShape

end StandingQuery
