/-!
# What can be wrong with a schema

A list of columns may break a rule of schemas, and the text of a schema may not follow the
grammar. A grammar fault names what was expected and the offset, in UTF-8 bytes, where it was.
-/

namespace StandingQuery

/-- How many levels the types of a schema text may have. -/
def maxTypeDepth : Nat := 64

/-- What the grammar of schemas can call for. -/
inductive Expectation
  | symbol (c : Char)
  | closingQuote
  | number
  | sqlType
  | schemaEnd
  deriving DecidableEq, Repr

def Expectation.name : Expectation → String
  | symbol c => "'" ++ String.singleton c ++ "'"
  | closingQuote => "closing '`'"
  | number => "a number"
  | sqlType => "a SQL type"
  | schemaEnd => "end of schema"

/-- Why there is no schema. -/
inductive SchemaError
  | noColumns
  | keyAfterValue (column : String)
  | duplicateColumn (column : String)
  | expected (what : Expectation) (offset : Nat) (input : String)
  | tooDeep (offset : Nat)
  deriving DecidableEq, Repr

def SchemaError.message : SchemaError → String
  | noColumns => "schema has no columns"
  | keyAfterValue column => s!"key column `{column}` follows a value column"
  | duplicateColumn column => s!"duplicate column `{column}`"
  | expected what offset input =>
    "expected " ++ what.name ++ s!" at offset {offset} in '{input}'"
  | tooDeep offset => s!"type nesting too deep at offset {offset} (limit {maxTypeDepth})"

end StandingQuery
