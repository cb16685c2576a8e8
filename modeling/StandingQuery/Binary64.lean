import StandingQuery.Text.Numeral

/-!
# Finite numbers of double precision

A `Binary64` is a sign and a magnitude `mantissa · 2 ^ exponent` with at most 53 bits. Products,
quotients and integers are rounded to the nearest number, ties to the even mantissa, in exact
natural arithmetic. `toText` writes the fewest digits that read back as the number, and of
these the nearest.
-/

namespace StandingQuery

/-! ## Rounding -/

/-- The natural number nearest to `num / den`, the even one of two. -/
def roundQuotient (num den : Nat) : Nat :=
  let q := num / den
  let r := num % den
  if 2 * r < den then q
  else if den < 2 * r then q + 1
  else if q % 2 = 0 then q else q + 1

/-- A finite number of double precision. -/
structure Binary64 where
  negative : Bool
  mantissa : Nat
  exponent : Int
  deriving DecidableEq, Repr

namespace Binary64

/-- The least exponent; the numbers below the normal ones have it too. -/
def minExponent : Int := -1074

/-- The least mantissa of a normal number: 53 bits. -/
def leastNormal : Nat := 4503599627370496

def maxExponent : Int := 971

def zero : Binary64 := ⟨false, 0, minExponent⟩

/-- The number nearest to `num / den`, or `none` if it is too large. -/
def ofRatio (num den : Nat) : Option Binary64 :=
  if num = 0 then some zero
  else
    let guess : Int := (num.log2 : Int) - den.log2 - 52
    let quotientAt (e : Int) : Nat × Nat := (num * Nat.pow 2 (-e).toNat, den * Nat.pow 2 e.toNat)
    let (n, d) := quotientAt guess
    let e := max minExponent (if n / d < leastNormal then guess - 1 else guess)
    let (n, d) := quotientAt e
    let m := roundQuotient n d
    let (m, e) := if m = 2 * leastNormal then (leastNormal, e + 1) else (m, e)
    if maxExponent < e then none else some ⟨false, m, e⟩

/-- The magnitude as a fraction. -/
def ratio (x : Binary64) : Nat × Nat :=
  (x.mantissa * Nat.pow 2 x.exponent.toNat, Nat.pow 2 (-x.exponent).toNat)

def mul (x y : Binary64) : Option Binary64 :=
  ofRatio (x.ratio.1 * y.ratio.1) (x.ratio.2 * y.ratio.2)

def div (x y : Binary64) : Option Binary64 :=
  ofRatio (x.ratio.1 * y.ratio.2) (x.ratio.2 * y.ratio.1)

def neg (x : Binary64) : Binary64 := { x with negative := !x.negative }

/-! ## Scaling by powers of ten -/

/-- The greatest exponent of a power of ten in range. -/
def maxPower : Nat := 308

/-- The number times `10 ^ exponent`, rounded after each step. Steps down go by `10 ^ 308` while
more is left, and zero stays zero; `none` if the result is too large. Three steps take every
integer of 64 bits to zero. -/
def scale : Nat → Binary64 → Int → Option Binary64
  | steps, x, exponent =>
    if exponent.natAbs ≤ maxPower then do
      let power ← ofRatio (Nat.pow 10 exponent.natAbs) 1
      if 0 ≤ exponent then x.mul power else x.div power
    else if x.mantissa = 0 then some x
    else if 0 ≤ exponent then none
    else match steps with
      | 0 => some zero
      | steps + 1 => do
        let power ← ofRatio (Nat.pow 10 maxPower) 1
        scale steps (← x.div power) (exponent + maxPower)

/-- The number `significand · 10 ^ exponent`, or `none` if it is too large. -/
def ofScaled (significand : Nat) (exponent : Int) : Option Binary64 := do
  scale 3 (← ofRatio significand 1) exponent

/-! ## Shortest text -/

/-- How a number is written: where positional notation begins and ends, by the exponent of
the leading digit. -/
structure Style where
  positionalFrom : Int
  positionalTo : Int

/-- Numbers from `10 ^ -5` up to `10 ^ 16` are written positionally. -/
def style : Style := ⟨-5, 15⟩

/-- Whether `c · 10 ^ k` reads back as the number: it lies between the midpoints to the
neighbours, which belong to the number iff its mantissa is even. -/
def readsBack (x : Binary64) (c : Nat) (k : Int) : Bool :=
  let below := if x.mantissa = leastNormal ∧ minExponent < x.exponent then 1 else 2
  let unit := x.exponent - 2
  let scaled := c * Nat.pow 10 k.toNat * Nat.pow 2 (-unit).toNat
  let grid := Nat.pow 10 (-k).toNat * Nat.pow 2 unit.toNat
  let low := (4 * x.mantissa - below) * grid
  let high := (4 * x.mantissa + 2) * grid
  if x.mantissa % 2 = 0 then low ≤ scaled && scaled ≤ high else low < scaled && scaled < high

/-- The exponent of the leading decimal digit of a positive fraction. -/
def leadingExponent (num den : Nat) : Int :=
  if den ≤ num then (toString (num / den)).length - 1
  else
    match (List.range 400).find? fun j => den ≤ num * Nat.pow 10 j with
    | some j => -(j : Int)
    | none => 0

/-- The neighbour of the number on the grid of `10 ^ k` that reads back, the nearer one of
two and the even one of two equally near. -/
def onGrid (x : Binary64) (k : Int) : Option Nat :=
  let num := x.ratio.1 * Nat.pow 10 (-k).toNat
  let den := x.ratio.2 * Nat.pow 10 k.toNat
  let low := num / den
  let nearest := roundQuotient num den
  let other := if nearest = low then low + 1 else low
  if x.readsBack nearest k then some nearest
  else if x.readsBack other k then some other
  else none

/-- Drops the zeros at the end of a number and counts them into its exponent. -/
def stripZeros : Nat → Nat → Int → Nat × Int
  | 0, c, k => (c, k)
  | steps + 1, c, k => if c % 10 = 0 ∧ c ≠ 0 then stripZeros steps (c / 10) (k + 1) else (c, k)

/-- The fewest digits that read back, and the exponent of their last. -/
def shortest (x : Binary64) : Nat × Int :=
  let top := leadingExponent x.ratio.1 x.ratio.2
  let found := (List.range 17).findSome? fun (i : Nat) =>
    (x.onGrid (top - i)).map fun c => (c, top - (i : Int))
  let (c, k) := found.getD (0, 0)
  stripZeros 17 c k

/-- The decimal text of a number that is not negative. -/
def magnitudeText (s : Style) (x : Binary64) : String :=
  if x.mantissa = 0 then "0.0"
  else
    let (c, k) := x.shortest
    let digits := (toString c).toList
    let top : Int := (digits.length : Int) - 1 + k
    if s.positionalFrom ≤ top ∧ top ≤ s.positionalTo then
      if 0 ≤ k then String.ofList (digits ++ List.replicate k.toNat '0' ++ ['.', '0'])
      else if 0 ≤ top then
        let whole := (top + 1).toNat
        String.ofList (digits.take whole ++ ['.'] ++ digits.drop whole)
      else String.ofList (['0', '.'] ++ List.replicate (-top - 1).toNat '0' ++ digits)
    else
      let fraction := if digits.length ≤ 1 then [] else '.' :: digits.drop 1
      let sign := if top < 0 then '-' else '+'
      String.ofList
        (digits.take 1 ++ fraction ++ ['e', sign] ++ (toString top.natAbs).toList)

/-- The shortest text that reads back as the number. -/
def toText (x : Binary64) : String :=
  if x.negative then "-" ++ magnitudeText style x else magnitudeText style x

end Binary64

end StandingQuery
