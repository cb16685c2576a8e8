import StandingQuery.Schema.Error
import StandingQuery.Schema.Type

/-!
# Schemas

A schema is a list of columns, at least one, with the key columns first and no name twice.
`LogicalSchema.firstFault` goes through the columns once and finds the first that breaks a
rule; a `LogicalSchema` is a list in which it finds none.

* `LogicalSchema.columns_ne_nil`: a schema has a column.
-/

namespace StandingQuery

/-- A column; key columns belong to the key of a record. -/
structure Column where
  name : String
  type : SqlType
  isKey : Bool
  deriving DecidableEq

namespace LogicalSchema

/-- The first fault among columns that follow those named in `seen`; `afterValue` says whether
one of these was a value column. -/
def faultAfter (seen : List String) (afterValue : Bool) : List Column → Option SchemaError
  | [] => none
  | c :: cs =>
    if c.isKey && afterValue then some (.keyAfterValue c.name)
    else if c.name ∈ seen then some (.duplicateColumn c.name)
    else faultAfter (c.name :: seen) (afterValue || !c.isKey) cs

/-- The first reason why columns are no schema. -/
def firstFault (columns : List Column) : Option SchemaError :=
  if columns.isEmpty then some .noColumns else faultAfter [] false columns

end LogicalSchema

/-- Columns that make up a schema. -/
structure LogicalSchema where
  columns : List Column
  /-- The columns break no rule. -/
  faultless : LogicalSchema.firstFault columns = none
  deriving DecidableEq

namespace LogicalSchema

def ofColumns (columns : List Column) : Except SchemaError LogicalSchema :=
  match h : firstFault columns with
  | some fault => .error fault
  | none => .ok ⟨columns, h⟩

theorem columns_ne_nil (s : LogicalSchema) : s.columns ≠ [] := by
  intro h
  have := s.faultless
  simp [h, firstFault] at this

def keyColumns (s : LogicalSchema) : List Column := s.columns.filter fun c => c.isKey

def valueColumns (s : LogicalSchema) : List Column := s.columns.filter fun c => !c.isKey

def column? (s : LogicalSchema) (name : String) : Option Column :=
  s.columns.find? fun c => c.name == name

/-- The greatest depth among the types of the columns. -/
def depth (s : LogicalSchema) : Nat := (s.columns.map fun c => c.type.depth).foldl max 0

end LogicalSchema

end StandingQuery
