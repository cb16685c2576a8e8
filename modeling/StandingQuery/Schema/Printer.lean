import StandingQuery.Schema.LogicalSchema

/-!
# The text of a schema

A name is written between back-quotes, with the back-quotes in it doubled; a column is its name,
its type and, for a key column, the word `KEY`. This is the canonical text of a schema.
-/

namespace StandingQuery

/-- One character of a name between back-quotes. -/
def renderNameChar (c : Char) : List Char := if c = '`' then ['`', '`'] else [c]

/-- A name between back-quotes. -/
def renderName (name : String) : List Char :=
  '`' :: name.toList.flatMap renderNameChar ++ ['`']

namespace SqlType

mutual

def render : SqlType → List Char
  | simple t => t.word.toList
  | decimal p s => (s!"DECIMAL({p.toNat}, {s.toNat})").toList
  | array element => "ARRAY<".toList ++ element.render ++ ['>']
  | map key value => "MAP<".toList ++ key.render ++ ", ".toList ++ value.render ++ ['>']
  | struct fields => "STRUCT<".toList ++ renderFields fields ++ ['>']

/-- The fields of a struct. -/
def renderFields : List (String × SqlType) → List Char
  | [] => []
  | (name, t) :: fields => renderName name ++ ' ' :: t.render ++ renderMoreFields fields

/-- The fields after the first, each after a comma. -/
def renderMoreFields : List (String × SqlType) → List Char
  | [] => []
  | (name, t) :: fields =>
    ", ".toList ++ renderName name ++ ' ' :: t.render ++ renderMoreFields fields

end

def toText (t : SqlType) : String := String.ofList t.render

end SqlType

def Column.render (c : Column) : List Char :=
  renderName c.name ++ ' ' :: c.type.render ++ (if c.isKey then " KEY".toList else [])

namespace LogicalSchema

def render (s : LogicalSchema) : List Char :=
  ", ".toList.intercalate (s.columns.map Column.render)

def toText (s : LogicalSchema) : String := String.ofList s.render

end LogicalSchema

end StandingQuery
