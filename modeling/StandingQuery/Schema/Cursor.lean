import StandingQuery.Schema.Reader

/-!
# Reading schemas by byte position

A text in memory is an array of bytes, and whoever reads it keeps a position in it. Here the
grammar of schemas is read in this way. A cursor goes along the text by the sizes of what was
read, what is left is sliced from the text at the cursor, and a counter tells how many types are
open. A slice has to begin and end between characters, or else the run stops there. A run keeps
all the cursors that it has had.

The readers have the names of those in `SchemaReader`, which hand on the characters that are left
and so need no positions. They call each other as the grammar has it, and nothing bounds how often.

* `runFrom_bind`, `runFrom_rest`, `runFrom_readType`: what the steps of a run do.
-/

namespace StandingQuery.SchemaCursor

open SchemaReader (isWordChar upper utf8Size)

/-! ## Runs -/

/-- A byte position in a text, and how many types are open there. -/
structure Cursor where
  position : Nat
  depth : Nat
  deriving DecidableEq, Repr

/-- The cursor of a run, and those that it had before, the last one first. -/
structure Track where
  now : Cursor
  past : List Cursor

namespace Track

/-- At the start of a text. -/
def start : Track := ⟨⟨0, 0⟩, []⟩

def cursors (t : Track) : List Cursor := t.now :: t.past

def moveTo (t : Track) (c : Cursor) : Track := ⟨c, t.cursors⟩

def advance (t : Track) (bytes : Nat) : Track :=
  t.moveTo { t.now with position := t.now.position + bytes }

def moveBack (t : Track) (position : Nat) : Track := t.moveTo { t.now with position }

/-- One more type is open. -/
def enter (t : Track) : Track := t.moveTo { t.now with depth := t.now.depth + 1 }

def leave (t : Track) : Track := t.moveTo { t.now with depth := t.now.depth - 1 }

end Track

/-- Why a run stops. -/
inductive Stop
  | fault (error : SchemaError)
  /-- A slice would begin or end at a byte that is no boundary between characters. -/
  | outside (position : Nat)

/-- Steps along a text. Where they go on for ever there is no result. -/
abbrev Steps (α : Type) := ReaderT String (StateT Track Option) α

/-- Steps along a text that may stop. -/
abbrev Scan (α : Type) := ExceptT Stop (ReaderT String (StateT Track Option)) α

variable {α β : Type}

/-- What comes of steps along a text, and the track they leave. -/
def Scan.runFrom (scan : Scan α) (text : String) (t : Track) : Option (Except Stop α × Track) :=
  ((ExceptT.run scan).run text).run t

/-! ## Slices -/

/-- The text from a byte on, if that is a boundary between characters. -/
def sliceFrom? (text : String) (byte : Nat) : Option String :=
  if h : String.Pos.Raw.IsValid text ⟨byte⟩ then some (text.sliceFrom ⟨⟨byte⟩, h⟩).copy else none

/-- The text up to a byte, if that is a boundary between characters. -/
def sliceTo? (text : String) (byte : Nat) : Option String :=
  if h : String.Pos.Raw.IsValid text ⟨byte⟩ then some (text.sliceTo ⟨⟨byte⟩, h⟩).copy else none

/-- What is left of the text. -/
def rest : Scan String := do
  let byte := (← get).now.position
  match sliceFrom? (← read) byte with
  | some left => return left
  | none => throw (.outside byte)

def advance (bytes : Nat) : Scan Unit := modify fun t => t.advance bytes

/-- Something else was to come at the cursor. -/
def expected (what : Expectation) : Scan α := do
  throw (.fault (.expected what (← get).now.position (← read)))

/-! ## Tokens -/

def skipBlank : Scan Unit := do
  let left ← rest
  advance (utf8Size left.toList - utf8Size (Text.trimStart left.toList))

def tryChar (c : Char) : Scan Bool := do
  skipBlank
  let left ← rest
  if left.toList.head? = some c then
    advance c.utf8Size
    return true
  else
    return false

def expectChar (c : Char) : Scan Unit := do
  if ← tryChar c then return () else expected (.symbol c)

/-- The first byte of the first character with a property. -/
def findByte? (p : Char → Bool) : List Char → Option Nat
  | [] => none
  | c :: cs => if p c then some 0 else (findByte? p cs).map (c.utf8Size + ·)

/-- The longest word that comes next, sliced from what is left. -/
def readWord : Scan (List Char) := do
  skipBlank
  let left ← rest
  let size := (findByte? (fun c => !isWordChar c) left.toList).getD (utf8Size left.toList)
  advance size
  match sliceTo? left size with
  | some word => return word.toList
  | none => throw (.outside size)

/-- Where no keyword comes next, the position is set back. -/
def tryKeyword (keyword : String) : Scan Bool := do
  let start := (← get).now.position
  if upper (← readWord) = keyword then
    return true
  else
    modify fun t => t.moveBack start
    return false

def readNumber : Scan UInt8 := do
  match Text.Numeral.unsigned Text.max8 (← readWord) with
  | .ok n => return UInt8.ofNat n
  | .error _ => expected .number

/-- The characters of a text, each with its first byte. -/
def charBytes (byte : Nat) : List Char → List (Nat × Char)
  | [] => []
  | c :: cs => (byte, c) :: charBytes (byte + c.utf8Size) cs

/-- The characters up to a back-quote that is not doubled, and its byte. -/
def closingQuote : List (Nat × Char) → Option (List Char × Nat)
  | [] => none
  | (_, '`') :: (_, '`') :: cs => (closingQuote cs).map (Prod.map ('`' :: ·) id)
  | (byte, '`') :: _ => some ([], byte)
  | (_, c) :: cs => (closingQuote cs).map (Prod.map (c :: ·) id)

def readName : Scan String := do
  expectChar '`'
  match closingQuote (charBytes 0 (← rest).toList) with
  | some (name, byte) =>
    advance (byte + 1)
    return String.ofList name
  | none => expected .closingQuote

/-! ## Types -/

-- Recursive calls are made by `apply`, here and in `readColumns`: the definitions would keep the
-- place in the file of a call that is written as a term.
mutual

/-- A type counts as open until its body has been read or has come to a stop. -/
def readType : Scan SqlType := (do
  let c := (← get).now
  if c.depth ≥ maxTypeDepth then
    return .error (.fault (.tooDeep c.position))
  else
    modify Track.enter
    let result ← ExceptT.run (by apply readTypeBody)
    modify Track.leave
    return result : Steps (Except Stop SqlType))
partial_fixpoint

def readTypeBody : Scan SqlType := do
  let word := upper (← readWord)
  match SimpleType.ofWord? word with
  | some t => return .simple t
  | none =>
    if word = "DECIMAL" then do
      expectChar '('
      let precision ← readNumber
      expectChar ','
      let scale ← readNumber
      expectChar ')'
      return .decimal precision scale
    else if word = "ARRAY" then do
      expectChar '<'
      let element ← by apply readType
      expectChar '>'
      return .array element
    else if word = "MAP" then do
      expectChar '<'
      let key ← by apply readType
      expectChar ','
      let value ← by apply readType
      expectChar '>'
      return .map key value
    else if word = "STRUCT" then do
      expectChar '<'
      if ← tryChar '>' then
        return .struct []
      else
        let fields ← by apply readFields
        expectChar '>'
        return .struct fields
    else expected .sqlType
partial_fixpoint

def readField : Scan (String × SqlType) := do
  let name ← readName
  let t ← by apply readType
  return (name, t)
partial_fixpoint

def readFields : Scan (List (String × SqlType)) := do
  let field ← by apply readField
  if ← tryChar ',' then
    let fields ← by apply readFields
    return field :: fields
  else
    return [field]
partial_fixpoint

end

/-! ## Whole texts -/

def readColumn : Scan Column := do
  let name ← readName
  let type ← readType
  let isKey ← tryKeyword "KEY"
  return ⟨name, type, isKey⟩

def readColumns : Scan (List Column) := do
  let column ← readColumn
  if ← tryChar ',' then
    let columns ← by apply readColumns
    return column :: columns
  else
    return [column]
partial_fixpoint

def expectEnd : Scan Unit := do
  skipBlank
  if (← rest).isEmpty then return () else expected .schemaEnd

/-- All the text has to be read. -/
def whole (scan : Scan α) : Scan α := do
  let a ← scan
  expectEnd
  return a

/-- A result that needs no more of the text. -/
def ofResult : Except SchemaError α → Scan α
  | .ok a => return a
  | .error e => throw (.fault e)

def readSchema : Scan LogicalSchema := do
  let columns ← whole readColumns
  ofResult (LogicalSchema.ofColumns columns)

/-! ## What steps do -/

section

variable {text : String} {t : Track}

theorem runFrom_bind (x : Scan α) (f : α → Scan β) :
    (x >>= f).runFrom text t = match x.runFrom text t with
      | none => none
      | some (.ok a, t') => (f a).runFrom text t'
      | some (.error stop, t') => some (.error stop, t') := by
  simp only [Scan.runFrom, ExceptT.run_bind, ReaderT.run_bind, StateT.run_bind]
  cases ((ExceptT.run x).run text).run t with
  | none => rfl
  | some result =>
    obtain ⟨_ | _, _⟩ := result <;> rfl

theorem runFrom_get : (get : Scan Track).runFrom text t = some (.ok t, t) := rfl

theorem runFrom_read : (read : Scan String).runFrom text t = some (.ok text, t) := rfl

theorem runFrom_advance (bytes : Nat) :
    (advance bytes).runFrom text t = some (.ok (), t.advance bytes) := rfl

theorem runFrom_expected (what : Expectation) : (expected what : Scan α).runFrom text t =
    some (.error (.fault (.expected what t.now.position text)), t) := rfl

theorem runFrom_ofResult (result : Except SchemaError α) :
    (ofResult result).runFrom text t = some (result.mapError .fault, t) := by
  cases result <;> rfl

theorem runFrom_rest {left : String} (h : sliceFrom? text t.now.position = some left) :
    rest.runFrom text t = some (.ok left, t) := by
  simp only [rest, runFrom_bind, runFrom_get, runFrom_read, h]
  rfl

theorem runFrom_readType : readType.runFrom text t =
    if t.now.depth ≥ maxTypeDepth then some (.error (.fault (.tooDeep t.now.position)), t)
    else (readTypeBody.runFrom text t.enter).map fun (result, t') => (result, t'.leave) := by
  rw [readType]
  change ReaderT.run (if t.now.depth ≥ maxTypeDepth then _ else _ : Steps _) text t = _
  by_cases h : t.now.depth ≥ maxTypeDepth
  · rw [if_pos h, if_pos h]
    rfl
  · rw [if_neg h, if_neg h]
    change Option.bind (readTypeBody.runFrom text t.enter) _ = _
    cases readTypeBody.runFrom text t.enter <;> rfl

end

end StandingQuery.SchemaCursor
