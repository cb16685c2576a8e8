import StandingQuery.Json.Value
import StandingQuery.Schema.Error

/-!
# Records in the JSON of plans

A record is given as an object, whose members are named after its fields, or as an array of
its fields in the order of their declaration. A tagged record has a tag besides: the member
`@type` of the object, or the first item of the array.

Reading a record reads every field that is given and then settles on one error, if there is
any. In an object the first member that cannot be read comes first, in the order of the
members, and after these the first required field that is not given. In an array the fields are
gone through in order, and surplus items come last. Unknown members are ignored.

* `Slot.value_eq_ok_iff`: when a field has a value.
-/

namespace StandingQuery.PlanReader

open Json

/-! ## Errors -/

/-- How many items an array could have had. -/
inductive LengthRule
  /-- The fields of the record. -/
  | record (name : String) (count : Nat)
  /-- No more than these, inside a tagged record. -/
  | sequence (count : Nat)
  /-- Fewer, elsewhere. -/
  | fewer
  deriving DecidableEq, Repr

/-- A number of items, as a message names it. -/
def countText (n : Nat) : String := if n = 1 then "1 element" else s!"{n} elements"

def LengthRule.name : LengthRule → String
  | record name count => s!"struct {name} with " ++ countText count
  | sequence count => countText count ++ " in sequence"
  | fewer => "fewer elements in array"

/-- Why a value cannot be read as a record. -/
inductive ReadError
  /-- A value of one kind stands where another was expected. -/
  | wrongType (found expected : String)
  | missingField (name : String)
  | missingTag
  /-- The tag is neither a text nor, where that is allowed, the index of a variant. -/
  | tagNotText (found : String)
  | unknownVariant (tag : String) (known : List String)
  | variantIndex (index count : Nat)
  | wrongLength (given : Nat) (rule : LengthRule)
  | schema (e : SchemaError)
  deriving DecidableEq, Repr

/-- Alternatives, as a message lists them. -/
def alternatives : List String → String
  | [] => "there are no variants"
  | [a] => s!"expected `{a}`"
  | [a, b] => s!"expected `{a}` or `{b}`"
  | more => "expected one of " ++ ", ".intercalate (more.map fun a => s!"`{a}`")

def ReadError.message : ReadError → String
  | wrongType found expected => s!"invalid type: {found}, expected {expected}"
  | missingField name => s!"missing field `{name}`"
  | missingTag => "missing field `@type`"
  | tagNotText found => s!"invalid type: {found}, expected variant identifier"
  | unknownVariant tag known => s!"unknown variant `{tag}`, " ++ alternatives known
  | variantIndex index count =>
    s!"invalid value: integer `{index}`, expected variant index 0 <= i < {count}"
  | wrongLength given rule => s!"invalid length {given}, expected " ++ rule.name
  | schema e => "schema error: " ++ e.message

/-- Reading yields a value or the error that stands in its way. -/
abbrev Read (α : Type) := Except ReadError α

/-! ## Plain values -/

def readText : Value → Read String
  | .string s => .ok s
  | v => .error (.wrongType v.kindText "a string")

def readBool : Value → Read Bool
  | .bool b => .ok b
  | v => .error (.wrongType v.kindText "a boolean")

/-- A list of values, of which the first that cannot be read decides. -/
def readList {α : Type} (read : Value → Read α) : Value → Read (List α)
  | .array vs => vs.mapM read
  | v => .error (.wrongType v.kindText "a sequence")

/-- A value or null. -/
def readNullable {α : Type} (read : Value → Read α) : Value → Read (Option α)
  | .null => .ok none
  | v => (read v).map some

/-! ## Fields -/

/-- The fields that a value gives to a record. -/
inductive Members
  | named (members : List (String × Value))
  | listed (items : List Value)

/-- Whether a record stands inside a tagged one. There, surplus items are counted, and tags may
be given by index. -/
inductive Place
  | outer
  | inner
  deriving DecidableEq, Repr

/-- A field: what the record gives for it, and what it is if nothing is given. -/
structure Slot (α : Type) where
  name : String
  found : Option (Read α)
  default : Option α := none

namespace Slot

variable {α : Type}

def value (s : Slot α) : Read α :=
  match s.found, s.default with
  | some r, _ => r
  | none, some x => .ok x
  | none, none => .error (.missingField s.name)

theorem value_eq_ok_iff {s : Slot α} {x : α} :
    s.value = .ok x ↔ s.found = some (.ok x) ∨ s.found = none ∧ s.default = some x := by
  unfold value
  split <;> simp_all

end Slot

/-- What matters of a field for the choice of the error. -/
structure Status where
  name : String
  /-- The error in what is given. -/
  fault : Option ReadError
  /-- Nothing is given, though something has to be. -/
  missing : Bool

def Slot.status {α : Type} (s : Slot α) : Status where
  name := s.name
  fault := match s.found with
    | some (.error e) => some e
    | _ => none
  missing := s.found.isNone && s.default.isNone

namespace Members

/-- The members of an untagged record. -/
def ofRecord (record : String) : Value → Read Members
  | .object ms => .ok (named ms)
  | .array vs => .ok (listed vs)
  | v => .error (.wrongType v.kindText ("struct " ++ record))

/-- What is given for the field with a name and an index. -/
def given? (m : Members) (index : Nat) (name : String) : Option Value :=
  match m with
  | named ms => ms.lookup name
  | listed vs => vs[index]?

/-- The field with a name and an index. -/
def slot {α : Type} (m : Members) (index : Nat) (name : String) (read : Value → Read α)
    (default : Option α := none) : Slot α where
  name := name
  found := (m.given? index name).map read
  default := default

/-- The first member of an object that cannot be read. -/
def firstFault (statuses : List Status) (ms : List (String × Value)) : Option ReadError :=
  ms.findSome? fun m => (statuses.find? fun s => s.name == m.1).bind Status.fault

/-- The first fault of an array of `count` fields, from the field at `index` on. -/
def firstListedFault (record : String) (count index : Nat) : List Status → Option ReadError
  | [] => none
  | s :: ss =>
    match s.fault with
    | some e => some e
    | none =>
      if s.missing then some (.wrongLength index (.record record count))
      else firstListedFault record count (index + 1) ss

/-- The error of a record, given the status of its fields in the order of their declaration. -/
def error? (place : Place) (record : String) (m : Members) (statuses : List Status) :
    Option ReadError :=
  match m with
  | named ms =>
    match firstFault statuses ms with
    | some e => some e
    | none => (statuses.find? Status.missing).map fun s => .missingField s.name
  | listed vs =>
    match firstListedFault record statuses.length 0 statuses with
    | some e => some e
    | none =>
      if statuses.length < vs.length then
        some (.wrongLength vs.length (match place with
          | .outer => .fewer
          | .inner => .sequence statuses.length))
      else none

/-- Goes on if the record has no error. -/
def settle (place : Place) (record : String) (m : Members) (statuses : List Status) :
    Read Unit :=
  match error? place record m statuses with
  | some e => .error e
  | none => .ok ()

end Members

/-! ## Tags -/

/-- The variant that a tag selects. -/
def readVariant {κ : Type} (place : Place) (variants : List (String × κ)) (tag : Value) :
    Read κ :=
  match tag with
  | .string t =>
    match variants.lookup t with
    | some k => .ok k
    | none => .error (.unknownVariant t (variants.map Prod.fst))
  | .number (.integer n) =>
    if place = .inner ∧ 0 ≤ n then
      match variants[n.toNat]? with
      | some (_, k) => .ok k
      | none => .error (.variantIndex n.toNat variants.length)
    else .error (.tagNotText tag.kindText)
  | _ => .error (.tagNotText tag.kindText)

/-- The variant and the members of a tagged record. -/
def readTagged {κ : Type} (place : Place) (record : String) (variants : List (String × κ))
    (v : Value) : Read (κ × Members) :=
  match v with
  | .object ms =>
    match ms.lookup "@type" with
    | none => .error .missingTag
    | some tag => (readVariant place variants tag).map fun k => (k, .named ms)
  | .array [] => .error .missingTag
  | .array (tag :: vs) => (readVariant place variants tag).map fun k => (k, .listed vs)
  | v => .error (.wrongType v.kindText ("internally tagged enum " ++ record))

end StandingQuery.PlanReader
