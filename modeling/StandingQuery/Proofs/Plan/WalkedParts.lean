import StandingQuery.Proofs.Plan.TagCoverage

/-!
# Where the check of tags goes

The check of tags goes from a document down to its nodes, through members of fixed names and
through the items of the plan. What it does at one part is the same for all of them: the part
itself is a tagged place if parts of its kind have tags, and then the parts in some of its
members are gone through. So what holds of all places is shown once for all parts, by going one
step down.

* `PlanPart.mem_places`, `PlanPart.mem_places_entries`: the places at a part, one step down.
* `PlanPart.carried_iff`: when all places at a part pass, one step down.
-/

namespace StandingQuery

open Json

/-! ## Parts -/

/-- The parts of a document that are records, and the list of its entries. -/
inductive PlanPart
  | document
  | entries
  | entry
  | command
  | query
  | node
  | properties
  | formats
  | format
  deriving DecidableEq, Repr

namespace PlanPart

/-- What the tag of a part is the tag of, if it has one. -/
def category? : PlanPart → Option Category
  | entry => some .planEntry
  | command => some .ddlCommand
  | node => some .planNode
  | _ => none

/-- The members through which the check goes on from a part, and the parts that stand there. -/
def walked : PlanPart → List (String × PlanPart)
  | document => [("plan", entries)]
  | entry => [("ddlCommand", command), ("queryPlan", query)]
  | query => [("physicalPlan", node)]
  | node => [("source", node)]
  | _ => []

/-- The places in the entries of a plan. -/
def entriesPlaces (path : Path) (v : Value) : List TaggedPlace :=
  (v.items?.getD []).zipIdx.flatMap fun (e, i) => entryPlaces (path ++ [.index i]) e

/-- The places that the check comes to from a value that stands for a part. -/
def places : PlanPart → Path → Value → List TaggedPlace
  | document, path, v =>
    (v.member? "plan").toList.flatMap (entriesPlaces (path ++ [.member "plan"]))
  | entries, path, v => entriesPlaces path v
  | entry, path, v => entryPlaces path v
  | command, path, v => [⟨path, .ddlCommand, v⟩]
  | query, path, v =>
    (v.member? "physicalPlan").toList.flatMap (nodePlaces (path ++ [.member "physicalPlan"]))
  | node, path, v => nodePlaces path v
  | _, _, _ => []

variable {part : PlanPart} {path : Path} {v : Value} {p : TaggedPlace}

theorem taggedPlaces_eq (v : Value) : taggedPlaces v = document.places [] v := by
  rw [taggedPlaces, places]
  cases v.member? "plan" with
  | none => rfl
  | some w => cases w <;> simp [entriesPlaces, Value.items?]

/-! ## One step down -/

theorem mem_places_entries : p ∈ entries.places path v ↔
    ∃ vs i e, v = .array vs ∧ vs[i]? = some e ∧ p ∈ entry.places (path ++ [.index i]) e := by
  simp only [places, entriesPlaces, List.mem_flatMap]
  constructor
  · rintro ⟨⟨e, i⟩, he, hp⟩
    cases v with
    | array vs => exact ⟨vs, i, e, rfl, List.mk_mem_zipIdx_iff_getElem?.1 he, hp⟩
    | _ => cases he
  · rintro ⟨vs, i, e, rfl, he, hp⟩
    exact ⟨(e, i), List.mk_mem_zipIdx_iff_getElem?.2 he, hp⟩

theorem nodePlaces_eq (path : Path) (v : Value) : nodePlaces path v =
    ⟨path, .planNode, v⟩ ::
      (v.member? "source").toList.flatMap (nodePlaces (path ++ [.member "source"])) := by
  cases v with
  | object ms => rw [nodePlaces, sourcePlaces_eq, Value.member?_object]
  | _ => rfl

theorem entryPlaces_eq (path : Path) (v : Value) : entryPlaces path v =
    ⟨path, .planEntry, v⟩ ::
      ((v.member? "ddlCommand").toList.flatMap (command.places (path ++ [.member "ddlCommand"])) ++
        (v.member? "queryPlan").toList.flatMap (query.places (path ++ [.member "queryPlan"]))) := by
  rw [entryPlaces]
  cases v.member? "ddlCommand" <;> cases v.member? "queryPlan" <;> simp [places]

/-- The places at a part: the part itself, if it has a tag, and those in the members through
which the check goes on. -/
theorem mem_places (hpart : part ≠ entries) : p ∈ part.places path v ↔
    (∃ category, part.category? = some category ∧ p = ⟨path, category, v⟩) ∨
      ∃ name sub w, (name, sub) ∈ part.walked ∧ v.member? name = some w ∧
        p ∈ sub.places (path ++ [.member name]) w := by
  cases part with
  | entries => exact absurd rfl hpart
  | entry =>
    rw [places, entryPlaces_eq]
    simp [category?, walked, or_and_right, exists_or, and_assoc]
  | node =>
    rw [places, nodePlaces_eq]
    simp [category?, walked, and_assoc, places]
  | _ => simp [category?, walked, and_assoc, places]

/-! ## Passing the check -/

/-- All places at a value that stands for a part carry a tag. -/
def Carried (part : PlanPart) (path : Path) (v : Value) : Prop :=
  ∀ p ∈ part.places path v, ∃ tag, CarriesTag p.category tag p.value

theorem carried_iff (hpart : part ≠ .entries) : part.Carried path v ↔
    (∀ category, part.category? = some category → ∃ tag, CarriesTag category tag v) ∧
      ∀ name sub w, (name, sub) ∈ part.walked → v.member? name = some w →
        sub.Carried (path ++ [.member name]) w := by
  constructor
  · intro h
    constructor
    · intro category hcategory
      exact h _ ((mem_places hpart).2 (Or.inl ⟨category, hcategory, rfl⟩))
    · intro name sub w hname hw p hp
      exact h p ((mem_places hpart).2 (Or.inr ⟨name, sub, w, hname, hw, hp⟩))
  · rintro ⟨hself, hdown⟩ p hp
    rcases (mem_places hpart).1 hp with ⟨category, hcategory, rfl⟩ | ⟨name, sub, w, hname, hw, hp⟩
    · exact hself category hcategory
    · exact hdown name sub w hname hw p hp

theorem checkTags_eq_ok_iff : checkTags v = .ok () ↔ document.Carried [] v := by
  rw [checkTags, TaggedPlace.checkAll_eq_ok_iff, taggedPlaces_eq]
  exact forall₂_congr fun p _ => TaggedPlace.check_eq_ok_iff

/-! ## Depths -/

end PlanPart

end StandingQuery
