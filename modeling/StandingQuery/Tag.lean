import StandingQuery.EngineVersion

/-!
# Version tags

Every entry, command and operator of a plan carries a tag: a kind, the letter `V` and a
version number, such as `tableSinkV1`. The table lists the tags that can be read, each with
its category and the engine version that introduced it.

* `Tag.lookup_tag`: every tag of the table is found in it.
* `Tag.split?_of_mem`: every tag of the table is well formed.
-/

namespace StandingQuery

/-- What a tag stands on. -/
inductive Category
  | planEntry
  | ddlCommand
  | planNode
  deriving DecidableEq, Repr

def Category.name : Category → String
  | planEntry => "plan entry"
  | ddlCommand => "DDL command"
  | planNode => "plan node"

namespace Tag

/-! ## The form of tags -/

/-- Whether a kind is a lower-case letter followed by letters and digits, all of ASCII. -/
def isKind : List Char → Bool
  | [] => false
  | c :: cs => c.isLower && cs.all Char.isAlphanum

/-- The kind and the version of a tag; it is split at its last `V`. -/
def split? (tag : String) : Option (String × Nat) :=
  let reversed := tag.toList.reverse
  let version := (reversed.takeWhile (· ≠ 'V')).reverse
  match reversed.dropWhile (· ≠ 'V') with
  | [] => none
  | _ :: kind =>
    let kind := kind.reverse
    if isKind kind && !version.isEmpty && version.all Char.isDigit then
      match Text.Numeral.unsigned Text.max32 version with
      | .ok n => some (String.ofList kind, n)
      | .error _ => none
    else none

/-! ## The table -/

/-- A tag that can be read. -/
structure Row where
  tag : String
  category : Category
  since : EngineVersion
  deriving DecidableEq, Repr

namespace Row

def kind (r : Row) : String := ((split? r.tag).map Prod.fst).getD r.tag

def version (r : Row) : Nat := ((split? r.tag).map Prod.snd).getD 0

end Row

/-- The engine version of most tags. -/
def since10 : EngineVersion := ⟨0, 10, 0⟩

/-- The engine version that brought sources with store formats. -/
def since22 : EngineVersion := ⟨0, 22, 0⟩

/-- All tags that can be read. -/
def table : List Row :=
  [⟨"ksqlPlanV1", .planEntry, since10⟩,
   ⟨"createStreamV1", .ddlCommand, since10⟩,
   ⟨"createTableV1", .ddlCommand, since10⟩,
   ⟨"streamSourceV1", .planNode, since10⟩,
   ⟨"tableSourceV1", .planNode, since10⟩,
   ⟨"tableSourceV2", .planNode, since22⟩,
   ⟨"streamFilterV1", .planNode, since10⟩,
   ⟨"streamSelectV1", .planNode, since10⟩,
   ⟨"streamGroupByKeyV1", .planNode, since10⟩,
   ⟨"streamAggregateV1", .planNode, since10⟩,
   ⟨"streamSinkV1", .planNode, since10⟩,
   ⟨"tableFilterV1", .planNode, since10⟩,
   ⟨"tableSelectV1", .planNode, since10⟩,
   ⟨"tableSinkV1", .planNode, since10⟩]

def lookup (tag : String) : Option Row := table.find? fun r => r.tag == tag

theorem lookup_tag : ∀ r ∈ table, lookup r.tag = some r := by decide

theorem split?_of_mem : ∀ r ∈ table, (split? r.tag).isSome := by decide

/-! ## The verdict on a tag -/

/-- Why a tag cannot stand in a place of some category. -/
inductive Fault
  /-- It does not have the form of a tag. -/
  | malformed
  /-- Its kind is known, but not in this version. -/
  | unsupportedVersion (kind : String)
  /-- Its kind is not known. -/
  | unknown
  deriving DecidableEq, Repr

/-- The row of a tag that stands in a place of some category. -/
def resolve (tag : String) (category : Category) : Except Fault Row :=
  match split? tag with
  | none => .error .malformed
  | some (kind, _) =>
    match (lookup tag).filter fun r => r.category == category with
    | some r => .ok r
    | none =>
      if table.any fun r => r.category == category && r.kind == kind then
        .error (.unsupportedVersion kind)
      else .error .unknown

end Tag

end StandingQuery
