/-!
# Decimal integers in text

An integer is written as an optional sign and one or more ASCII digits; leading zeros are
allowed, white space is not. Reading goes from left to right and reports the first problem:
a character that is no digit, or a value that has left the range.

* `accumulate_ok_iff`: what the digits of a number stand for.
-/

namespace StandingQuery.Text

/-- Why a text is no integer of the wanted range. -/
inductive NumeralFault
  | empty
  | invalidDigit
  | tooLarge
  | tooSmall
  deriving DecidableEq, Repr

def NumeralFault.message : NumeralFault → String
  | empty => "cannot parse integer from empty string"
  | invalidDigit => "invalid digit found in string"
  | tooLarge => "number too large to fit in target type"
  | tooSmall => "number too small to fit in target type"

namespace Numeral

/-- The value of an ASCII digit. -/
def digit (c : Char) : Nat := c.toNat - '0'.toNat

/-- The number that `n`, followed by the digits of a text, stands for. -/
def value (n : Nat) (cs : List Char) : Nat := cs.foldl (fun n c => n * 10 + digit c) n

/-- Reads digits after the number `n`; `overflow` is reported once the value exceeds `limit`. -/
def accumulate (limit : Nat) (overflow : NumeralFault) : Nat → List Char → Except NumeralFault Nat
  | n, [] => .ok n
  | n, c :: cs =>
    if c.isDigit then
      if n * 10 + digit c ≤ limit then accumulate limit overflow (n * 10 + digit c) cs
      else .error overflow
    else .error .invalidDigit

theorem le_value (n : Nat) (cs : List Char) : n ≤ value n cs := by
  induction cs generalizing n with
  | nil => exact Nat.le_refl n
  | cons c cs ih =>
    refine Nat.le_trans ?_ (ih (n * 10 + digit c))
    omega

theorem accumulate_ok_iff {limit : Nat} {overflow : NumeralFault} {n m : Nat} {cs : List Char}
    (h : n ≤ limit) :
    accumulate limit overflow n cs = .ok m ↔
      (∀ c ∈ cs, c.isDigit = true) ∧ value n cs = m ∧ value n cs ≤ limit := by
  induction cs generalizing n with
  | nil => simp [accumulate, value, h]
  | cons c cs ih =>
    simp only [accumulate, List.forall_mem_cons]
    have hv : value n (c :: cs) = value (n * 10 + digit c) cs := rfl
    split
    · rename_i hc
      split
      · rename_i hle
        rw [ih hle, hv]
        simp [hc]
      · rename_i hle
        have := le_value (n * 10 + digit c) cs
        simp only [reduceCtorEq, false_iff, hv]
        omega
    · rename_i hc
      simp [hc]

/-- Reads one or more digits. -/
def digits (limit : Nat) (overflow : NumeralFault) (cs : List Char) : Except NumeralFault Nat :=
  if cs.isEmpty then .error .invalidDigit else accumulate limit overflow 0 cs

/-- Reads a number from 0 to `limit`; a plus sign may stand before it. -/
def unsigned (limit : Nat) (cs : List Char) : Except NumeralFault Nat :=
  match cs with
  | [] => .error .empty
  | '+' :: ds => digits limit .tooLarge ds
  | ds => digits limit .tooLarge ds

/-- Reads an integer from `-(limit + 1)` to `limit`; either sign may stand before it. -/
def signed (limit : Nat) (cs : List Char) : Except NumeralFault Int :=
  match cs with
  | [] => .error .empty
  | '+' :: ds => (digits limit .tooLarge ds).map Int.ofNat
  | '-' :: ds => (digits (limit + 1) .tooSmall ds).map fun n => -(n : Int)
  | ds => (digits limit .tooLarge ds).map Int.ofNat

end Numeral

def max8 : Nat := 255

def max16 : Nat := 65535

def max32 : Nat := 4294967295

def max63 : Nat := 9223372036854775807

def max64 : Nat := 18446744073709551615

end StandingQuery.Text
