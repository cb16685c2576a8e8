import StandingQuery.Plan.Reader
import StandingQuery.Plan.TagWalk
import StandingQuery.Plan.Writer

/-!
# Plan documents as text

A document is written as compact JSON. Reading it back goes through four stages, each of which
can fail: the text is JSON, its tags are in the table, its values are the records of a plan,
and these are valid.

* `PlanDocument.decode_eq_decodeValue`: after the text has been scanned, only its value counts.
-/

namespace StandingQuery

open Json

/-- The bytes of a value's compact text. -/
def Json.Value.bytes (v : Value) : List UInt8 := Text.Utf8.encode v.toText

namespace PlanDocument

def encode (d : PlanDocument) : List UInt8 := d.toJson.bytes

/-- The document that a JSON value holds. -/
def decodeValue (v : Value) : Except PlanError PlanDocument := do
  checkTags v
  let d ← (PlanReader.readDocument v).mapError .shape
  d.validate.mapError .invalid
  return d

/-- The document that a text holds. -/
def decode (text : List UInt8) : Except PlanError PlanDocument := do
  let v ← (scan text).mapError .scan
  decodeValue v

theorem decode_eq_decodeValue {text : List UInt8} {v : Value} (h : scan text = .ok v) :
    decode text = decodeValue v := by
  simp only [decode, h]
  rfl

end PlanDocument

end StandingQuery
