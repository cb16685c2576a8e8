import StandingQuery.Text.Numeral

/-!
# Numbers that texts denote

A text denotes a number if it is one or more ASCII digits, after a plus sign perhaps, whose value
is in range. The value is the one that the library gives to digits, so reading and printing meet.

* `Text.Numeral.unsigned_eq_ok_iff`: which texts denote a number.
* `Text.Numeral.unsigned_toDigits`: the digits of a number denote it.
-/

namespace StandingQuery

namespace Text.Numeral

theorem value_eq_ofDigitChars (n : Nat) (cs : List Char) :
    value n cs = Nat.ofDigitChars 10 cs n := by
  rw [Nat.ofDigitChars_eq_foldl]
  simp only [value, digit, Nat.mul_comm]

theorem digits_eq_ok_iff {limit n : Nat} {overflow : NumeralFault} {ds : List Char} :
    digits limit overflow ds = .ok n ↔
      ds ≠ [] ∧ (∀ c ∈ ds, c.isDigit = true) ∧ Nat.ofDigitChars 10 ds 0 = n ∧ n ≤ limit := by
  unfold digits
  cases ds with
  | nil => simp
  | cons d ds =>
    simp only [List.isEmpty_cons, Bool.false_eq_true, if_false, accumulate_ok_iff (Nat.zero_le _),
      value_eq_ofDigitChars, ne_eq, reduceCtorEq, not_false_eq_true, true_and]
    constructor
    · rintro ⟨hdigits, rfl, hle⟩
      exact ⟨hdigits, rfl, hle⟩
    · rintro ⟨hdigits, rfl, hle⟩
      exact ⟨hdigits, rfl, hle⟩

/-- A number is one or more digits, after a plus sign perhaps. -/
theorem unsigned_eq_ok_iff {limit n : Nat} {cs : List Char} :
    unsigned limit cs = .ok n ↔ ∃ ds, (cs = ds ∨ cs = '+' :: ds) ∧ ds ≠ [] ∧
      (∀ c ∈ ds, c.isDigit = true) ∧ Nat.ofDigitChars 10 ds 0 = n ∧ n ≤ limit := by
  unfold unsigned
  split
  · simp
  · rename_i ds
    rw [digits_eq_ok_iff]
    constructor
    · intro h
      exact ⟨ds, Or.inr rfl, h⟩
    · rintro ⟨es, rfl | hes, h⟩
      · exact absurd (h.2.1 '+' List.mem_cons_self) (by decide)
      · obtain rfl : ds = es := (List.cons.inj hes).2
        exact h
  · rename_i hplus
    rw [digits_eq_ok_iff]
    constructor
    · intro h
      exact ⟨cs, Or.inl rfl, h⟩
    · rintro ⟨es, rfl | hes, h⟩
      · exact h
      · exact absurd hes (hplus es)

/-- The decimal digits of a number in range are read as that number. -/
theorem unsigned_toDigits {limit n : Nat} (h : n ≤ limit) :
    unsigned limit (Nat.toDigits 10 n) = .ok n :=
  unsigned_eq_ok_iff.2 ⟨Nat.toDigits 10 n, Or.inl rfl, Nat.toDigits_ne_nil,
    fun _ hc => Nat.isDigit_of_mem_toDigits (by decide) (by decide) hc,
    Nat.ofDigitChars_ten_toDigits, h⟩

end Text.Numeral

end StandingQuery
