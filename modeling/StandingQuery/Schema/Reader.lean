import StandingQuery.Schema.LogicalSchema
import StandingQuery.Text.Blank
import StandingQuery.Text.Numeral

/-!
# Reading the text of a schema

Each reader takes the characters that are left and returns what it has read together with the
characters left after it. A fault keeps the characters that were left where it arose; the
offset in the message is the size of the text before them. White space may stand between
tokens, and words may be in any case.

A type is read with a number of levels it may still have, which each enclosing type lowers by
one. A list separated by commas is read with as many further items allowed as characters are
left, which is more than there can be.

* `skipBlank_suffix`, `tryChar_suffix`: what is left after reading is a tail of what was there.
-/

namespace StandingQuery.SchemaReader

/-- A fault, with the characters that were left where it arose. -/
inductive Fault
  | expected (what : Expectation) (left : List Char)
  | tooDeep (left : List Char)

/-- The size of characters in UTF-8 bytes. -/
def utf8Size : List Char → Nat
  | [] => 0
  | c :: cs => c.utf8Size + utf8Size cs

/-- The fault as an error about a whole text. -/
def Fault.toError (input : String) : Fault → SchemaError
  | expected what left => .expected what (utf8Size input.toList - utf8Size left) input
  | tooDeep left => .tooDeep (utf8Size input.toList - utf8Size left)

/-! ## Tokens -/

/-- What is left after white space. -/
def skipBlank (cs : List Char) : List Char := Text.trimStart cs

/-- Whether a symbol comes next, and what is left after it or before what comes instead. -/
def tryChar (c : Char) (cs : List Char) : Bool × List Char :=
  match skipBlank cs with
  | [] => (false, [])
  | d :: rest => if d = c then (true, rest) else (false, d :: rest)

/-- What is left after a symbol that has to come next. -/
def expectChar (c : Char) (cs : List Char) : Except Fault (List Char) :=
  match tryChar c cs with
  | (true, rest) => .ok rest
  | (false, rest) => .error (.expected (.symbol c) rest)

/-- The characters of words. -/
def isWordChar (c : Char) : Bool := c.isAlphanum || c == '_'

/-- The longest word that comes next, which may be empty, and what is left after it. -/
def readWord (cs : List Char) : List Char × List Char :=
  let cs := skipBlank cs
  (cs.takeWhile isWordChar, cs.dropWhile isWordChar)

def upper (word : List Char) : String := String.ofList (word.map Char.toUpper)

/-- Whether a keyword comes next, and what is left after it or where it was looked for. -/
def tryKeyword (keyword : String) (cs : List Char) : Bool × List Char :=
  let (word, rest) := readWord cs
  if upper word = keyword then (true, rest) else (false, cs)

/-- A number of at most 8 bits. -/
def readNumber (cs : List Char) : Except Fault (UInt8 × List Char) :=
  let (word, rest) := readWord cs
  match Text.Numeral.unsigned Text.max8 word with
  | .ok n => .ok (UInt8.ofNat n, rest)
  | .error _ => .error (.expected .number rest)

/-- The characters up to a back-quote that is not doubled, and what is left after it. -/
def closeName : List Char → Option (List Char × List Char)
  | [] => none
  | '`' :: '`' :: cs => (closeName cs).map fun (name, rest) => ('`' :: name, rest)
  | '`' :: cs => some ([], cs)
  | c :: cs => (closeName cs).map fun (name, rest) => (c :: name, rest)

/-- A name between back-quotes. -/
def readName (cs : List Char) : Except Fault (String × List Char) :=
  match expectChar '`' cs with
  | .error fault => .error fault
  | .ok cs =>
    match closeName cs with
    | some (name, rest) => .ok (String.ofList name, rest)
    | none => .error (.expected .closingQuote cs)

theorem skipBlank_suffix (cs : List Char) : skipBlank cs <:+ cs := List.dropWhile_suffix _

theorem tryChar_suffix (c : Char) (cs : List Char) : (tryChar c cs).2 <:+ cs := by
  have h := skipBlank_suffix cs
  unfold tryChar
  split
  · exact List.nil_suffix
  · rename_i d rest hd
    rw [hd] at h
    split
    · exact (List.suffix_cons d rest).trans h
    · exact h

/-! ## Types -/

/-- Items separated by commas, at most `more` after the first. -/
def commaSeparated {α : Type} (item : List Char → Except Fault (α × List Char)) :
    Nat → List Char → Except Fault (List α × List Char)
  | 0, cs => do
    let (x, cs) ← item cs
    return ([x], cs)
  | more + 1, cs => do
    let (x, cs) ← item cs
    match tryChar ',' cs with
    | (true, cs) =>
      let (xs, cs) ← commaSeparated item more cs
      return (x :: xs, cs)
    | (false, cs) => return ([x], cs)

/-- A type of at most `levels` levels. -/
def readType : Nat → List Char → Except Fault (SqlType × List Char)
  | 0, cs => .error (.tooDeep cs)
  | levels + 1, cs =>
    let (word, rest) := readWord cs
    let word := upper word
    match SimpleType.ofWord? word with
    | some t => .ok (.simple t, rest)
    | none =>
      if word = "DECIMAL" then do
        let cs ← expectChar '(' rest
        let (precision, cs) ← readNumber cs
        let cs ← expectChar ',' cs
        let (scale, cs) ← readNumber cs
        let cs ← expectChar ')' cs
        return (.decimal precision scale, cs)
      else if word = "ARRAY" then do
        let cs ← expectChar '<' rest
        let (element, cs) ← readType levels cs
        let cs ← expectChar '>' cs
        return (.array element, cs)
      else if word = "MAP" then do
        let cs ← expectChar '<' rest
        let (key, cs) ← readType levels cs
        let cs ← expectChar ',' cs
        let (value, cs) ← readType levels cs
        let cs ← expectChar '>' cs
        return (.map key value, cs)
      else if word = "STRUCT" then do
        let cs ← expectChar '<' rest
        match tryChar '>' cs with
        | (true, cs) => return (.struct [], cs)
        | (false, cs) =>
          let field (cs : List Char) : Except Fault ((String × SqlType) × List Char) := do
            let (name, cs) ← readName cs
            let (t, cs) ← readType levels cs
            return ((name, t), cs)
          let (fields, cs) ← commaSeparated field cs.length cs
          let cs ← expectChar '>' cs
          return (.struct fields, cs)
      else .error (.expected .sqlType rest)

/-! ## Schemas -/

/-- A column: its name, its type and, for a key column, the word `KEY`. -/
def readColumn (cs : List Char) : Except Fault (Column × List Char) := do
  let (name, cs) ← readName cs
  let (type, cs) ← readType maxTypeDepth cs
  let (isKey, cs) := tryKeyword "KEY" cs
  return (⟨name, type, isKey⟩, cs)

/-- Nothing but white space may be left. -/
def expectEnd (cs : List Char) : Except Fault Unit :=
  match skipBlank cs with
  | [] => .ok ()
  | rest => .error (.expected .schemaEnd rest)

/-- All the text has to be one item. -/
def whole {α : Type} (item : List Char → Except Fault (α × List Char)) (text : String) :
    Except SchemaError α :=
  let result := do
    let (x, rest) ← item text.toList
    expectEnd rest
    return x
  result.mapError (Fault.toError text)

end SchemaReader

/-- The type that a text denotes. -/
def SqlType.parse (text : String) : Except SchemaError SqlType :=
  SchemaReader.whole (SchemaReader.readType maxTypeDepth) text

/-- The schema that a text denotes. -/
def LogicalSchema.parse (text : String) : Except SchemaError LogicalSchema := do
  let columns ← SchemaReader.whole
    (fun cs => SchemaReader.commaSeparated SchemaReader.readColumn cs.length cs) text
  LogicalSchema.ofColumns columns

end StandingQuery
