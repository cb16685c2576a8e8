import StandingQuery.Plan.Error
import StandingQuery.Tag

/-!
# The shape of a plan

The shape of a document is the list of tags it uses, each once, in the order in which they
first occur. It tells from which engine version on the document can be read.

* `PlanShape.lookup_nodeKind`, `PlanShape.lookup_commandTag`: the tags of all nodes and commands
  are in the table.
-/

namespace StandingQuery

/-- The tags of an entry: its own, that of its command, and those of its query's nodes. -/
def PlanEntry.tags (e : PlanEntry) : List String :=
  PlanEntry.tag :: e.command.tag ::
    e.query.toList.flatMap fun q => q.physicalPlan.steps.map PlanNode.tag

/-- All tags of a document, as often as they occur. -/
def PlanDocument.tags (d : PlanDocument) : List String := d.plan.flatMap PlanEntry.tags

/-- The rows of the tags that a document uses. -/
structure PlanShape where
  rows : List Tag.Row
  deriving DecidableEq, Repr

namespace PlanShape

theorem lookup_nodeKind (k : NodeKind) : (Tag.lookup k.tag).isSome := by
  cases k <;> decide

theorem lookup_commandTag (side : Side) : (Tag.lookup (CreateSource.tagOf side)).isSome := by
  cases side <;> decide

/-- The rows with those of some more tags added, each if it is not there yet. -/
def collect (rows : List Tag.Row) : List String → Except PlanError (List Tag.Row)
  | [] => .ok rows
  | tag :: tags =>
    match Tag.lookup tag with
    | none => .error (.unknownTag tag "$")
    | some row =>
      if rows.any fun r => r.tag == row.tag then collect rows tags
      else collect (rows ++ [row]) tags

/-- The shape of a document. -/
def ofDocument (d : PlanDocument) : Except PlanError PlanShape :=
  (collect [] d.tags).map PlanShape.mk

def tags (s : PlanShape) : List String := s.rows.map Tag.Row.tag

/-- The first engine version that knows all tags of a shape. -/
def minimumVersion (s : PlanShape) : EngineVersion :=
  s.rows.foldl (fun v r => v.later r.since) ⟨0, 0, 0⟩

/-- Whether an engine version knows all tags of a shape. -/
def isReadableBy (s : PlanShape) (v : EngineVersion) : Bool := s.minimumVersion.le v

end PlanShape

end StandingQuery
