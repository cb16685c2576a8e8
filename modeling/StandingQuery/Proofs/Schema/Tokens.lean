import StandingQuery.Proofs.Text.Numerals
import StandingQuery.Schema.Printer
import StandingQuery.Schema.Reader

/-!
# Reading the tokens of printed schemas

Printed numbers, words and names are read back when what follows them cannot be taken for
more of them. Each lemma therefore leaves open what follows and asks only for its first
character.

* `readNumber_toDigits`: a printed number of 8 bits is read as that number.
* `readName_renderName`: a printed name is read as that name, back-quotes included.
* `readWord_append`: a word is read up to the first character that belongs to no word.
-/

namespace StandingQuery

namespace SchemaReader

/-! ## Words and names -/

/-- The characters that may stand after an item of a printed list: none, a comma or a bracket. -/
def Follows (rest : List Char) : Prop := ∀ c ∈ rest.head?, c = ',' ∨ c = '>'

theorem Follows.not_wordChar {rest : List Char} (h : Follows rest) :
    ∀ c ∈ rest.head?, isWordChar c = false := by
  intro c hc
  rcases h c hc with rfl | rfl <;> decide

theorem skipBlank_space (cs : List Char) : skipBlank (' ' :: cs) = skipBlank cs := by
  simp [skipBlank, Text.trimStart, show Text.isBlank ' ' = true by decide]

theorem skipBlank_of_head {c : Char} {cs : List Char} (h : Text.isBlank c = false) :
    skipBlank (c :: cs) = c :: cs := by
  simp [skipBlank, Text.trimStart, h]

theorem expectChar_self {c : Char} (cs : List Char) (h : Text.isBlank c = false) :
    expectChar c (c :: cs) = .ok cs := by
  simp [expectChar, tryChar, skipBlank_of_head h]

theorem isBlank_of_isWordChar {c : Char} (h : isWordChar c = true) : Text.isBlank c = false := by
  have hc : (65 ≤ c.toNat ∧ c.toNat ≤ 90) ∨ (97 ≤ c.toNat ∧ c.toNat ≤ 122) ∨
      (48 ≤ c.toNat ∧ c.toNat ≤ 57) ∨ c.toNat = 95 := by
    unfold isWordChar Char.isAlphanum Char.isAlpha Char.isUpper Char.isLower Char.isDigit at h
    simp only [Bool.or_eq_true, decide_eq_true_eq, Bool.and_eq_true, beq_iff_eq, ge_iff_le,
      UInt32.le_iff_toNat_le] at h
    rcases h with ((h | h) | h) | rfl
    · exact Or.inl h
    · exact Or.inr (Or.inl h)
    · exact Or.inr (Or.inr (Or.inl h))
    · exact Or.inr (Or.inr (Or.inr rfl))
  simp only [Text.isBlank, Bool.or_eq_false_iff, Bool.and_eq_false_iff, decide_eq_false_iff_not,
    beq_eq_false_iff_ne]
  omega

theorem readWord_append {word rest : List Char} (hw : ∀ c ∈ word, isWordChar c = true)
    (hne : word ≠ []) (hr : ∀ c ∈ rest.head?, isWordChar c = false) :
    readWord (word ++ rest) = (word, rest) := by
  obtain ⟨c, cs, rfl⟩ := List.exists_cons_of_ne_nil hne
  have hb : Text.isBlank c = false := isBlank_of_isWordChar (hw c List.mem_cons_self)
  have hrest : rest.takeWhile isWordChar = [] ∧ rest.dropWhile isWordChar = rest := by
    cases rest with
    | nil => exact ⟨rfl, rfl⟩
    | cons d ds =>
      have hd : isWordChar d = false := hr d rfl
      simp [hd]
  rw [readWord, List.cons_append, skipBlank_of_head hb, ← List.cons_append]
  simp only [List.takeWhile_append_of_pos hw, List.dropWhile_append_of_pos hw, hrest,
    List.append_nil]

theorem readWord_space (cs : List Char) : readWord (' ' :: cs) = readWord cs := by
  simp [readWord, skipBlank_space]

theorem closeName_render {cs rest : List Char} (hr : ∀ c ∈ rest.head?, c ≠ '`') :
    closeName (cs.flatMap renderNameChar ++ '`' :: rest) = some (cs, rest) := by
  induction cs with
  | nil =>
    cases rest with
    | nil => rfl
    | cons d ds =>
      have hd : d ≠ '`' := hr d rfl
      simp [closeName, hd]
  | cons c cs ih =>
    rw [List.flatMap_cons, List.append_assoc]
    by_cases hc : c = '`'
    · subst hc
      simp only [renderNameChar, if_true, List.cons_append, List.nil_append, closeName, ih]
      rfl
    · simp [renderNameChar, hc, closeName, ih]

/-- A printed name is read as that name. -/
theorem readName_renderName {name : String} {rest : List Char} (hr : ∀ c ∈ rest.head?, c ≠ '`') :
    readName (renderName name ++ rest) = .ok (name, rest) := by
  have hb : Text.isBlank '`' = false := by decide
  rw [renderName, readName, List.cons_append, List.cons_append, expectChar_self _ hb]
  simp only [List.append_assoc, List.singleton_append, closeName_render hr, String.ofList_toList]

theorem readName_space (cs : List Char) : readName (' ' :: cs) = readName cs := by
  simp only [readName, expectChar, tryChar, skipBlank_space]

/-- A printed number of 8 bits is read as that number. -/
theorem readNumber_toDigits (n : UInt8) {rest : List Char}
    (hr : ∀ c ∈ rest.head?, isWordChar c = false) :
    readNumber (Nat.toDigits 10 n.toNat ++ rest) = .ok (n, rest) := by
  have hw : ∀ c ∈ Nat.toDigits 10 n.toNat, isWordChar c = true := by
    intro c hc
    have hd : c.isDigit = true := Nat.isDigit_of_mem_toDigits (by decide) (by decide) hc
    simp [isWordChar, Char.isAlphanum, hd]
  have hn : n.toNat ≤ Text.max8 := Nat.le_of_lt_succ n.toNat_lt
  rw [readNumber, readWord_append hw Nat.toDigits_ne_nil hr]
  simp only [Text.Numeral.unsigned_toDigits hn, UInt8.ofNat_toNat]

end SchemaReader

end StandingQuery
