import StandingQuery.Json.Numeric
import StandingQuery.Text.Utf8

/-!
# Reading JSON text

The text is read one byte at a time by a machine with a stack: the stack holds the
containers in which a value is being read, and the mode says what may come next. At most
`maxDepth` containers may enclose each other. Text that cannot go on is refused at once; text
that ends while more is needed is reported as incomplete. Members are kept sorted by key, and
a later member replaces an earlier one with the same key.

* `scan_eq`: a text is read by running the machine over its bytes and finishing.
* `run_append`: running over two pieces of text is running over one after the other.
-/

namespace StandingQuery.Json

/-- Why a text is no JSON. -/
inductive ScanError
  /-- A byte, or a number or string that it ends, cannot stand where it stands. -/
  | unexpected
  /-- The text ends too early. -/
  | incomplete
  deriving DecidableEq, Repr

def ScanError.message : ScanError → String
  | unexpected => "unexpected character"
  | incomplete => "unexpected end of text"

/-- How many containers may enclose each other. -/
def maxDepth : Nat := 127

/-! ## Strings -/

/-- Where in a string the reading stands. -/
inductive Escape
  /-- Between characters. -/
  | none
  /-- After a backslash. -/
  | backslash
  /-- In a group of four hexadecimal digits, after those in `read` (in reverse); `high` is the
  high surrogate before it. -/
  | unit (high : Option Nat) (read : List UInt8)
  /-- After a high surrogate, which needs a low one. -/
  | high (high : Nat)
  /-- After a high surrogate and a backslash. -/
  | highBackslash (high : Nat)
  deriving DecidableEq, Repr

/-- A string as far as it has been read; its bytes are in reverse. -/
structure StringText where
  bytes : List UInt8 := []
  escape : Escape := .none
  deriving DecidableEq, Repr

namespace StringText

/-- What a byte does to the text of a string. -/
inductive Next
  | extended (s : StringText)
  | ended (s : String)
  | refused

def hexDigit? (b : UInt8) : Option Nat :=
  if 0x30 ≤ b ∧ b ≤ 0x39 then some (b.toNat - 0x30)
  else if 0x41 ≤ b ∧ b ≤ 0x46 then some (b.toNat - 0x37)
  else if 0x61 ≤ b ∧ b ≤ 0x66 then some (b.toNat - 0x57)
  else none

def hexValue? (bs : List UInt8) : Option Nat :=
  bs.foldlM (fun n b => (hexDigit? b).map (n * 16 + ·)) 0

/-- The string with one more character. -/
def push (s : StringText) (c : Char) : StringText :=
  { bytes := (String.utf8EncodeChar c).reverse ++ s.bytes }

/-- The byte that a short escape stands for. -/
def shortEscape? (b : UInt8) : Option UInt8 :=
  if b = 0x22 ∨ b = 0x5C ∨ b = 0x2F then some b
  else if b = 0x62 then some 0x08
  else if b = 0x66 then some 0x0C
  else if b = 0x6E then some 0x0A
  else if b = 0x72 then some 0x0D
  else if b = 0x74 then some 0x09
  else none

/-- The string after a group of four hexadecimal digits. Surrogates come in pairs, the high
one first. -/
def pushUnit (s : StringText) (high : Option Nat) (unit : Nat) : Next :=
  match high with
  | none =>
    if 0xDC00 ≤ unit ∧ unit ≤ 0xDFFF then .refused
    else if 0xD800 ≤ unit ∧ unit ≤ 0xDBFF then .extended { s with escape := .high unit }
    else .extended (s.push (Char.ofNat unit))
  | some high =>
    if 0xDC00 ≤ unit ∧ unit ≤ 0xDFFF then
      .extended (s.push (Char.ofNat ((high - 0xD800) * 0x400 + (unit - 0xDC00) + 0x10000)))
    else .refused

/-- The string with one more byte. The bytes are checked to be UTF-8 when the string ends. -/
def next (s : StringText) (b : UInt8) : Next :=
  match s.escape with
  | .none =>
    if b = 0x22 then
      match Text.Utf8.decode? s.bytes.reverse with
      | some text => .ended text
      | none => .refused
    else if b = 0x5C then .extended { s with escape := .backslash }
    else if b < 0x20 then .refused
    else .extended { s with bytes := b :: s.bytes }
  | .backslash =>
    if b = 0x75 then .extended { s with escape := .unit none [] }
    else match shortEscape? b with
      | some c => .extended { bytes := c :: s.bytes }
      | none => .refused
  | .unit high read =>
    if read.length < 3 then .extended { s with escape := .unit high (b :: read) }
    else match hexValue? (b :: read).reverse with
      | some unit => s.pushUnit high unit
      | none => .refused
  | .high high =>
    if b = 0x5C then .extended { s with escape := .highBackslash high } else .refused
  | .highBackslash high =>
    if b = 0x75 then .extended { s with escape := .unit (some high) [] } else .refused

end StringText

/-! ## The machine -/

/-- A container in which a value is being read, with what it holds so far. -/
inductive Frame
  /-- An array with its items so far, in reverse. -/
  | item (before : List Value)
  /-- An object with its members so far, and the key of the value being read. -/
  | member (before : List (String × Value)) (key : String)

/-- What may come next. -/
inductive Mode
  /-- A value. -/
  | value
  /-- The first item of an array, or its end. -/
  | arrayStart
  /-- A comma or the end of an array, whose items are in reverse. -/
  | afterItem (items : List Value)
  /-- The first key of an object, or its end. -/
  | objectStart
  /-- A further key of an object. -/
  | key (members : List (String × Value))
  /-- The rest of a key. -/
  | keyText (members : List (String × Value)) (text : StringText)
  /-- The colon after a key. -/
  | colon (members : List (String × Value)) (key : String)
  /-- A comma or the end of an object. -/
  | afterMember (members : List (String × Value))
  /-- The rest of a literal word. -/
  | word (left : List UInt8) (v : Value)
  /-- The rest of a number. -/
  | number (text : NumberText)
  /-- The rest of a string. -/
  | string (text : StringText)
  /-- The end of the text. -/
  | done (v : Value)

/-- A state of the machine. The container to which the mode belongs is not on the stack. -/
structure State where
  stack : List Frame
  mode : Mode

namespace State

/-- The machine before the first byte. -/
def start : State := ⟨[], .value⟩

/-- The state in which a value has just been completed. -/
def complete (v : Value) : List Frame → State
  | [] => ⟨[], .done v⟩
  | .item before :: stack => ⟨stack, .afterItem (v :: before)⟩
  | .member before key :: stack => ⟨stack, .afterMember (Entries.insert key v before)⟩

/-- White space between tokens. -/
def isSpace (b : UInt8) : Bool := b = 0x20 || b = 0x09 || b = 0x0A || b = 0x0D

/-- The state after the first byte of a value. -/
def beginValue (stack : List Frame) (b : UInt8) : Except ScanError State :=
  if b = 0x22 then .ok ⟨stack, .string {}⟩
  else if b = 0x5B then
    if stack.length < maxDepth then .ok ⟨stack, .arrayStart⟩ else .error .unexpected
  else if b = 0x7B then
    if stack.length < maxDepth then .ok ⟨stack, .objectStart⟩ else .error .unexpected
  else if b = 0x74 then .ok ⟨stack, .word [0x72, 0x75, 0x65] (.bool true)⟩
  else if b = 0x66 then .ok ⟨stack, .word [0x61, 0x6C, 0x73, 0x65] (.bool false)⟩
  else if b = 0x6E then .ok ⟨stack, .word [0x75, 0x6C, 0x6C] .null⟩
  else match NumberText.begin? b with
    | some text => .ok ⟨stack, .number text⟩
    | none => .error .unexpected

/-- The state after a byte that follows a completed value. -/
def afterValue (s : State) (b : UInt8) : Except ScanError State :=
  if isSpace b then .ok s
  else match s.mode with
    | .afterItem items =>
      if b = 0x2C then .ok ⟨.item items :: s.stack, .value⟩
      else if b = 0x5D then .ok (complete (.array items.reverse) s.stack)
      else .error .unexpected
    | .afterMember members =>
      if b = 0x2C then .ok ⟨s.stack, .key members⟩
      else if b = 0x7D then .ok (complete (.object members) s.stack)
      else .error .unexpected
    | _ => .error .unexpected

/-- The state after one more byte. -/
def step (s : State) (b : UInt8) : Except ScanError State :=
  match s.mode with
  | .value => if isSpace b then .ok s else beginValue s.stack b
  | .arrayStart =>
    if isSpace b then .ok s
    else if b = 0x5D then .ok (complete (.array []) s.stack)
    else beginValue (.item [] :: s.stack) b
  | .objectStart =>
    if isSpace b then .ok s
    else if b = 0x7D then .ok (complete (.object []) s.stack)
    else if b = 0x22 then .ok ⟨s.stack, .keyText [] {}⟩
    else .error .unexpected
  | .key members =>
    if isSpace b then .ok s
    else if b = 0x22 then .ok ⟨s.stack, .keyText members {}⟩
    else .error .unexpected
  | .keyText members text =>
    match text.next b with
    | .extended text => .ok ⟨s.stack, .keyText members text⟩
    | .ended key => .ok ⟨s.stack, .colon members key⟩
    | .refused => .error .unexpected
  | .colon members key =>
    if isSpace b then .ok s
    else if b = 0x3A then .ok ⟨.member members key :: s.stack, .value⟩
    else .error .unexpected
  | .word [] v => afterValue (complete v s.stack) b
  | .word [c] v => if b = c then .ok (complete v s.stack) else .error .unexpected
  | .word (c :: left) v =>
    if b = c then .ok ⟨s.stack, .word left v⟩ else .error .unexpected
  | .number text =>
    match text.next b with
    | .extended text => .ok ⟨s.stack, .number text⟩
    | .ended =>
      match text.value? with
      | some n => afterValue (complete (.number n) s.stack) b
      | none => .error .unexpected
    | .refused => .error .unexpected
  | .string text =>
    match text.next b with
    | .extended text => .ok ⟨s.stack, .string text⟩
    | .ended string => .ok (complete (.string string) s.stack)
    | .refused => .error .unexpected
  | .afterItem _ | .afterMember _ | .done _ => afterValue s b

/-- The state after some bytes. -/
def run (s : State) (bs : List UInt8) : Except ScanError State := bs.foldlM step s

theorem run_append (s : State) (bs cs : List UInt8) :
    s.run (bs ++ cs) = s.run bs >>= fun t => t.run cs := List.foldlM_append

/-- The value of a text that ends here. -/
def finish (s : State) : Except ScanError Value :=
  match s.mode with
  | .done v => .ok v
  | .number text =>
    if text.isComplete then
      match text.value?, s.stack with
      | none, _ => .error .unexpected
      | some n, [] => .ok (.number n)
      | some _, _ => .error .incomplete
    else .error .incomplete
  | _ => .error .incomplete

end State

/-- The value that a JSON text denotes. -/
def scan (text : List UInt8) : Except ScanError Value :=
  State.start.run text >>= State.finish

theorem scan_eq (text : List UInt8) :
    scan text = State.start.run text >>= State.finish := rfl

end StandingQuery.Json
