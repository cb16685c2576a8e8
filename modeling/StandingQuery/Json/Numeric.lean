import StandingQuery.Json.Value

/-!
# Numbers in JSON text

The text of a number is read one byte at a time into a `NumberText`, which keeps its digits.
`NumberText.value?` then says which number it is: an integer if it has neither fraction nor
exponent and fits 64 bits, else the number of double precision that the leading digits and
the exponent give. A number too large for double precision is none.
-/

namespace StandingQuery.Json

/-! ## The text of a number -/

/-- How far the text of a number has been read. -/
inductive NumberStage
  /-- After a minus sign. -/
  | sign
  /-- After a leading zero. -/
  | zero
  /-- After a digit of the integer part. -/
  | whole
  /-- After the point. -/
  | point
  /-- After a digit of the fraction. -/
  | fraction
  /-- After the letter of the exponent. -/
  | mark
  /-- After the sign of the exponent. -/
  | markSign
  /-- After a digit of the exponent. -/
  | power
  deriving DecidableEq, Repr

/-- The text of a number as far as it has been read; the digits are in reverse. -/
structure NumberText where
  stage : NumberStage
  negative : Bool := false
  whole : List Nat := []
  fraction : List Nat := []
  powerNegative : Bool := false
  power : List Nat := []
  deriving DecidableEq, Repr

namespace NumberText

/-- The value of a digit in ASCII. -/
def digit? (b : UInt8) : Option Nat :=
  if 0x30 ≤ b ∧ b ≤ 0x39 then some (b.toNat - 0x30) else none

/-- The text that a first byte begins. -/
def begin? (b : UInt8) : Option NumberText :=
  if b = 0x2D then some { stage := .sign, negative := true }
  else (digit? b).map fun d => { stage := if d = 0 then .zero else .whole, whole := [d] }

/-- What a byte does to the text of a number. -/
inductive Next
  | extended (n : NumberText)
  | ended
  | refused

/-- The text with one more byte. A byte that is not part of a number ends it where it may
end, and is refused elsewhere; a digit is refused after a leading zero. -/
def next (n : NumberText) (b : UInt8) : Next :=
  let point := b = 0x2E
  let mark := b = 0x65 ∨ b = 0x45
  match n.stage, digit? b with
  | .sign, some d => .extended { n with stage := if d = 0 then .zero else .whole, whole := [d] }
  | .zero, some _ => .refused
  | .whole, some d => .extended { n with whole := d :: n.whole }
  | .point, some d | .fraction, some d =>
    .extended { n with stage := .fraction, fraction := d :: n.fraction }
  | .mark, some d | .markSign, some d | .power, some d =>
    .extended { n with stage := .power, power := d :: n.power }
  | .zero, none | .whole, none =>
    if point then .extended { n with stage := .point }
    else if mark then .extended { n with stage := .mark }
    else .ended
  | .fraction, none => if mark then .extended { n with stage := .mark } else .ended
  | .mark, none =>
    if b = 0x2B then .extended { n with stage := .markSign }
    else if b = 0x2D then .extended { n with stage := .markSign, powerNegative := true }
    else .refused
  | .power, none => .ended
  | .sign, none | .point, none | .markSign, none => .refused

/-- Whether the number may end here. -/
def isComplete (n : NumberText) : Bool :=
  match n.stage with
  | .zero | .whole | .fraction | .power => true
  | .sign | .point | .mark | .markSign => false

/-! ## Its value -/

/-- A significand of at most 64 bits and the power of ten it is to be multiplied by. -/
structure Scaled where
  significand : Nat
  exponent : Int

/-- The leading digits that fit 64 bits, after those of `s`. Each digit taken moves the exponent
by `taken` and each digit left out by `dropped`; after the first one left out none is taken. -/
def absorb (taken dropped : Int) : Scaled → List Nat → Scaled
  | s, [] => s
  | s, d :: ds =>
    if s.significand * 10 + d ≤ Text.max64 then
      absorb taken dropped ⟨s.significand * 10 + d, s.exponent + taken⟩ ds
    else ⟨s.significand, s.exponent + dropped * (ds.length + 1)⟩

/-- The number that a list of digits denotes. -/
def ofDigits (ds : List Nat) : Nat := ds.foldl (fun n d => n * 10 + d) 0

/-- The double that the digits and the exponent give, or `none` if it is too large. An exponent
of more than 31 bits makes every number but zero too large or zero. -/
def double? (n : NumberText) : Option Binary64 :=
  let s := absorb (-1) 0 (absorb 0 1 ⟨0, 0⟩ n.whole.reverse) n.fraction.reverse
  let power := ofDigits n.power.reverse
  let exponent : Int := if n.powerNegative then -(power : Int) else power
  let magnitude :=
    if 2147483647 < power then
      if s.significand ≠ 0 ∧ n.powerNegative = false then none else some Binary64.zero
    else Binary64.ofScaled s.significand (s.exponent + exponent)
  if n.negative then magnitude.map Binary64.neg else magnitude

/-- The number of a complete text, or `none` if it is too large. A negative zero is a double. -/
def value? (n : NumberText) : Option Number :=
  let whole := ofDigits n.whole.reverse
  if n.stage = .zero ∨ n.stage = .whole then
    if n.negative then
      if 0 < whole ∧ whole ≤ Text.max63 + 1 then some (.integer (-(whole : Int)))
      else n.double?.map .double
    else if whole ≤ Text.max64 then some (.integer whole)
    else n.double?.map .double
  else n.double?.map .double

end NumberText

end StandingQuery.Json
