/-!
# Column types

The SQL types of columns: simple types, decimals, and types built from other types. `depth`
counts how many types enclose each other, a simple type being one level.

* `SqlType.depth_pos`: every type has at least one level.
-/

namespace StandingQuery

/-- A type written as a single word. -/
inductive SimpleType
  | boolean
  | integer
  | bigint
  | double
  | string
  | bytes
  | date
  | time
  | timestamp
  deriving DecidableEq, Repr

namespace SimpleType

def all : List SimpleType :=
  [boolean, integer, bigint, double, string, bytes, date, time, timestamp]

def word : SimpleType → String
  | boolean => "BOOLEAN"
  | integer => "INTEGER"
  | bigint => "BIGINT"
  | double => "DOUBLE"
  | string => "STRING"
  | bytes => "BYTES"
  | date => "DATE"
  | time => "TIME"
  | timestamp => "TIMESTAMP"

def ofWord? (w : String) : Option SimpleType := all.find? fun t => t.word == w

theorem ofWord?_word (t : SimpleType) : ofWord? t.word = some t := by cases t <;> decide

end SimpleType

/-- The type of a column. -/
inductive SqlType
  | simple (t : SimpleType)
  /-- A number with so many digits in all, and so many of them after the point. -/
  | decimal (precision scale : UInt8)
  | array (element : SqlType)
  | map (key value : SqlType)
  | struct (fields : List (String × SqlType))

namespace SqlType

mutual

/-- How many types enclose each other at the deepest place. -/
def depth : SqlType → Nat
  | simple _ | decimal _ _ => 1
  | array element => element.depth + 1
  | map key value => max key.depth value.depth + 1
  | struct fields => fieldsDepth fields + 1

/-- The greatest depth among the fields of a struct. -/
def fieldsDepth : List (String × SqlType) → Nat
  | [] => 0
  | (_, t) :: fields => max t.depth (fieldsDepth fields)

end

theorem depth_pos (t : SqlType) : 0 < t.depth := by
  cases t <;> simp [depth]

mutual

/-- Equality of types is decided by structure. -/
def decEq : (s t : SqlType) → Decidable (s = t)
  | simple a, simple b => decidable_of_iff (a = b) (by simp)
  | decimal a b, decimal c d => decidable_of_iff (a = c ∧ b = d) (by simp)
  | array a, array b =>
    match decEq a b with
    | isTrue h => isTrue (by rw [h])
    | isFalse h => isFalse (by simpa using h)
  | map a b, map c d =>
    match decEq a c, decEq b d with
    | isTrue h, isTrue k => isTrue (by rw [h, k])
    | isFalse h, _ => isFalse (by simp [h])
    | _, isFalse k => isFalse (by simp [k])
  | struct fs, struct gs =>
    match decEqFields fs gs with
    | isTrue h => isTrue (by rw [h])
    | isFalse h => isFalse (by simpa using h)
  | simple _, decimal _ _ | simple _, array _ | simple _, map _ _ | simple _, struct _
  | decimal _ _, simple _ | decimal _ _, array _ | decimal _ _, map _ _ | decimal _ _, struct _
  | array _, simple _ | array _, decimal _ _ | array _, map _ _ | array _, struct _
  | map _ _, simple _ | map _ _, decimal _ _ | map _ _, array _ | map _ _, struct _
  | struct _, simple _ | struct _, decimal _ _ | struct _, array _ | struct _, map _ _ =>
    isFalse (by simp)

/-- Equality of struct fields is decided field by field. -/
def decEqFields : (fs gs : List (String × SqlType)) → Decidable (fs = gs)
  | [], [] => isTrue rfl
  | [], _ :: _ | _ :: _, [] => isFalse (by simp)
  | (a, s) :: fs, (b, t) :: gs =>
    if h : a = b then
      match decEq s t, decEqFields fs gs with
      | isTrue k, isTrue l => isTrue (by rw [h, k, l])
      | isFalse k, _ => isFalse (by simp [k])
      | _, isFalse l => isFalse (by simp [l])
    else isFalse (by simp [h])

end

instance : DecidableEq SqlType := decEq

end SqlType

end StandingQuery
