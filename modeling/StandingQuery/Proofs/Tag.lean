import StandingQuery.Plan.TagWalk
import StandingQuery.Proofs.Text.Numerals

/-!
# The form of tags, and verdicts on them

A tag is a kind, the letter `V` and a version. A kind may hold that letter too, but a version is all
digits, so the last `V` is the one that stands between them, and a tag has one kind and one
version. A tag that stands in a place of some category is in the table, or it is told what is wrong
with it: it has not the form of a tag, its kind is known there in other versions only, or it is not
known there at all.

* `Tag.split?_eq_some_iff`: splitting finds the kind and the version that a tag spells.
* `Tag.resolve_eq_ok_iff`: when a tag is found in the table.
* `Tag.resolveAt_eq_iff_verdict`: which verdict is given on a tag.
-/

namespace StandingQuery

namespace Tag

/-! ## Look-ups in the table -/

theorem tag_of_lookup {tag : String} {row : Row} (h : lookup tag = some row) : row.tag = tag := by
  simpa using List.find?_some h

theorem lookup_tag_of_lookup {tag : String} {row : Row} (h : lookup tag = some row) :
    lookup row.tag = some row := by
  rw [tag_of_lookup h, h]

theorem lookup_filter_eq_none_iff {tag : String} {category : Category} :
    (lookup tag).filter (fun r => r.category == category) = none ↔
      ∀ r ∈ table, r.category = category → r.tag ≠ tag := by
  constructor
  · rintro h r hr rfl rfl
    simp [lookup_tag r hr] at h
  · intro h
    rw [Option.filter_eq_none_iff]
    intro r hr hcategory
    exact h r (List.mem_of_find?_eq_some hr) (by simpa using hcategory)
      (by simpa using List.find?_some hr)

/-! ## The form of tags -/

/-- A kind is a lower-case letter followed by letters and digits, all of ASCII. -/
def IsKind (kind : String) : Prop :=
  ∃ first rest, kind.toList = first :: rest ∧ first.isLower = true ∧
    ∀ c ∈ rest, c.isAlphanum = true

/-- A text spells a kind and a version of 32 bits: it is the kind, the letter `V` and one or more
digits, whose value is the version. -/
structure Spells (tag kind : String) (version : Nat) : Prop where
  begins : IsKind kind
  ends : ∃ digits : List Char, tag.toList = kind.toList ++ 'V' :: digits ∧ digits ≠ [] ∧
    (∀ c ∈ digits, c.isDigit = true) ∧ Nat.ofDigitChars 10 digits 0 = version
  small : version ≤ 4294967295

variable {tag kind kind' path : String} {version version' : Nat} {category : Category} {row : Row}

theorem isKind_iff {cs : List Char} : isKind cs = true ↔ IsKind (String.ofList cs) := by
  rw [IsKind, String.toList_ofList]
  cases cs with
  | nil => simp [isKind]
  | cons c cs =>
    simp only [isKind, Bool.and_eq_true, List.all_eq_true]
    constructor
    · rintro ⟨hfirst, hrest⟩
      exact ⟨c, cs, rfl, hfirst, hrest⟩
    · rintro ⟨_, _, ⟨⟩, hfirst, hrest⟩
      exact ⟨hfirst, hrest⟩

/-- Where a text is split at its last `V`. -/
theorem eq_append_of_dropWhile {cs rest : List Char} {c : Char}
    (h : cs.reverse.dropWhile (· ≠ 'V') = c :: rest) :
    cs = rest.reverse ++ 'V' :: (cs.reverse.takeWhile (· ≠ 'V')).reverse := by
  have hc := List.head?_dropWhile_not (· ≠ 'V') cs.reverse
  rw [h] at hc
  obtain rfl : c = 'V' := by simpa using hc
  have hsplit : cs.reverse.takeWhile (· ≠ 'V') ++ 'V' :: rest = cs.reverse := by
    rw [← h, List.takeWhile_append_dropWhile]
  have hreversed := congrArg List.reverse hsplit
  simpa using hreversed.symm

/-- Of a text that has no `V` after the one where it is split, the other parts are what is before
and after it. -/
theorem takeWhile_dropWhile_of_append {cs kind digits : List Char} (h : cs = kind ++ 'V' :: digits)
    (hdigits : 'V' ∉ digits) :
    (cs.reverse.takeWhile (· ≠ 'V')).reverse = digits ∧
      cs.reverse.dropWhile (· ≠ 'V') = 'V' :: kind.reverse := by
  have hreversed : cs.reverse = digits.reverse ++ 'V' :: kind.reverse := by simp [h]
  have hall : ∀ c ∈ digits.reverse, decide (c ≠ 'V') = true := by
    intro c hc
    rw [decide_eq_true_eq]
    rintro rfl
    exact hdigits (List.mem_reverse.1 hc)
  rw [hreversed, List.takeWhile_append_of_pos hall, List.dropWhile_append_of_pos hall]
  simp

/-- Digits without a sign before them denote their value. -/
theorem unsigned_digits_eq_ok_iff {digits : List Char} (hne : digits ≠ [])
    (hdigits : ∀ c ∈ digits, c.isDigit = true) {limit n : Nat} :
    Text.Numeral.unsigned limit digits = .ok n ↔ Nat.ofDigitChars 10 digits 0 = n ∧ n ≤ limit := by
  rw [Text.Numeral.unsigned_eq_ok_iff]
  constructor
  · rintro ⟨ds, rfl | rfl, _, _, hvalue⟩
    · exact hvalue
    · exact absurd (hdigits '+' List.mem_cons_self) (by decide)
  · intro hvalue
    exact ⟨digits, Or.inl rfl, hne, hdigits, hvalue⟩

/-- Splitting finds the kind and the version that a tag spells. -/
theorem split?_eq_some_iff : split? tag = some (kind, version) ↔ Spells tag kind version := by
  constructor
  · intro h
    simp only [split?] at h
    split at h
    · cases h
    rename_i c rest hrest
    split at h
    · rename_i hform
      simp only [Bool.and_eq_true, Bool.not_eq_true', List.isEmpty_eq_false_iff,
        List.all_eq_true] at hform
      obtain ⟨⟨hkind, hne⟩, hdigits⟩ := hform
      split at h
      · rename_i n hn
        cases h
        obtain ⟨hvalue, hle⟩ := (unsigned_digits_eq_ok_iff hne hdigits).1 hn
        refine ⟨isKind_iff.1 hkind, ⟨_, ?_, hne, hdigits, hvalue⟩, hle⟩
        rw [String.toList_ofList]
        exact eq_append_of_dropWhile hrest
      · cases h
    · cases h
  · rintro ⟨hkind, ⟨digits, htag, hne, hdigits, hvalue⟩, hle⟩
    have hV : 'V' ∉ digits := by
      intro hmem
      exact absurd (hdigits 'V' hmem) (by decide)
    obtain ⟨hversion, hrest⟩ := takeWhile_dropWhile_of_append htag hV
    have hkind' : isKind kind.toList = true := by
      rw [isKind_iff, String.ofList_toList]
      exact hkind
    have hn : Text.Numeral.unsigned Text.max32 digits = .ok version :=
      (unsigned_digits_eq_ok_iff hne hdigits).2 ⟨hvalue, hle⟩
    simp only [split?, hversion, hrest, List.reverse_reverse, hkind', List.isEmpty_eq_false_iff.2 hne,
      List.all_eq_true.2 hdigits, Bool.not_false, Bool.and_self, if_true, hn, String.ofList_toList]

theorem split?_eq_none_iff : split? tag = none ↔ ¬ ∃ kind version, Spells tag kind version := by
  simp only [← split?_eq_some_iff, Option.eq_none_iff_forall_ne_some, Prod.forall, not_exists]

/-- A tag has one kind and one version. -/
theorem Spells.unique (h : Spells tag kind version) (h' : Spells tag kind' version') :
    kind = kind' ∧ version = version' := by
  have hsame := (split?_eq_some_iff.2 h).symm.trans (split?_eq_some_iff.2 h')
  simpa using hsame

/-- A kind and a version are spelled by what is written for them. -/
theorem spells_written (hkind : IsKind kind) (hle : version ≤ 4294967295) :
    Spells (kind ++ "V" ++ toString version) kind version := by
  refine ⟨hkind, ⟨Nat.toDigits 10 version, ?_, Nat.toDigits_ne_nil, ?_,
    Nat.ofDigitChars_ten_toDigits⟩, hle⟩
  · simp [Nat.toString_eq_repr, Nat.toList_repr]
  · intro c hc
    exact Nat.isDigit_of_mem_toDigits (by decide) (by decide) hc

/-! ## Verdicts -/

/-- The kind of a row is the one that its tag spells. -/
theorem kind_eq_iff (h : row ∈ table) : row.kind = kind ↔ ∃ version, Spells row.tag kind version := by
  obtain ⟨⟨k, n⟩, hsplit⟩ := Option.isSome_iff_exists.1 (split?_of_mem row h)
  simp [Row.kind, ← split?_eq_some_iff, hsplit]

theorem resolve_eq_ok_iff :
    resolve tag category = .ok row ↔ row ∈ table ∧ row.tag = tag ∧ row.category = category := by
  constructor
  · intro h
    unfold resolve at h
    split at h
    · cases h
    split at h
    · rename_i hfound
      cases h
      obtain ⟨hrow, hcategory⟩ := Option.filter_eq_some_iff.1 hfound
      exact ⟨List.mem_of_find?_eq_some hrow, tag_of_lookup hrow, by simpa using hcategory⟩
    · split at h <;> cases h
  · rintro ⟨hrow, rfl, rfl⟩
    obtain ⟨⟨k, n⟩, hsplit⟩ := Option.isSome_iff_exists.1 (split?_of_mem row hrow)
    simp [resolve, hsplit, lookup_tag row hrow, Option.filter]

/-- The verdict on a tag at a place where a tag of some category is expected. -/
inductive Verdict (tag : String) (category : Category) (path : String) :
    Except PlanError Row → Prop
  /-- The tag is in the table. -/
  | found {row : Row} (hrow : row ∈ table) (htag : row.tag = tag)
      (hcategory : row.category = category) : Verdict tag category path (.ok row)
  /-- It spells no kind and version. -/
  | malformed (hform : ¬ ∃ kind version, Spells tag kind version) :
      Verdict tag category path (.error (.invalidTag tag))
  /-- Its kind is in the table, but in other versions. -/
  | unsupported {kind : String} {version : Nat} (hform : Spells tag kind version)
      (hrows : ∀ row ∈ table, row.category = category → row.tag ≠ tag)
      (hkind : ∃ row ∈ table, row.category = category ∧ ∃ version, Spells row.tag kind version) :
      Verdict tag category path (.error (.unsupportedVersion kind tag path))
  /-- Its kind is not in the table. -/
  | unknown {kind : String} {version : Nat} (hform : Spells tag kind version)
      (hkind : ∀ row ∈ table, row.category = category → ¬ ∃ version, Spells row.tag kind version) :
      Verdict tag category path (.error (.unknownTag tag path))

/-- There is a verdict on each tag. -/
theorem exists_verdict (tag : String) (category : Category) (path : String) :
    ∃ r, Verdict tag category path r := by
  by_cases hrows : ∃ row ∈ table, row.category = category ∧ row.tag = tag
  · obtain ⟨row, hrow, hcategory, htag⟩ := hrows
    exact ⟨_, .found hrow htag hcategory⟩
  · by_cases hform : ∃ kind version, Spells tag kind version
    · obtain ⟨kind, version, hform⟩ := hform
      by_cases hkind : ∃ row ∈ table, row.category = category ∧ ∃ version, Spells row.tag kind version
      · refine ⟨_, .unsupported hform ?_ hkind⟩
        intro row hrow hcategory htag
        exact hrows ⟨row, hrow, hcategory, htag⟩
      · refine ⟨_, .unknown hform ?_⟩
        intro row hrow hcategory hspells
        exact hkind ⟨row, hrow, hcategory, hspells⟩
    · exact ⟨_, .malformed hform⟩

theorem resolve_of_not_mem (hform : Spells tag kind version)
    (hrows : ∀ row ∈ table, row.category = category → row.tag ≠ tag) :
    resolve tag category =
      if table.any fun r => r.category == category && r.kind == kind then
        .error (.unsupportedVersion kind)
      else .error .unknown := by
  simp only [resolve, split?_eq_some_iff.2 hform, lookup_filter_eq_none_iff.2 hrows]

/-- What is said of a tag is the verdict on it. -/
theorem Verdict.resolveAt_eq {r : Except PlanError Row} (h : Verdict tag category path r) :
    resolveAt path category tag = r := by
  cases h with
  | found hrow htag hcategory =>
    rw [resolveAt, resolve_eq_ok_iff.2 ⟨hrow, htag, hcategory⟩]
    rfl
  | malformed hform =>
    simp only [resolveAt, resolve, split?_eq_none_iff.2 hform]
    rfl
  | @unsupported kind version hform hrows hkind =>
    obtain ⟨row, hrow, hcategory, hspells⟩ := hkind
    have hknown : (table.any fun r => r.category == category && r.kind == kind) = true :=
      List.any_eq_true.2 ⟨row, hrow, by simp [hcategory, (kind_eq_iff hrow).2 hspells]⟩
    rw [resolveAt, resolve_of_not_mem hform hrows, if_pos hknown]
    rfl
  | @unknown kind version hform hkind =>
    have hrows : ∀ row ∈ table, row.category = category → row.tag ≠ tag := by
      rintro row hrow hcategory rfl
      exact hkind row hrow hcategory ⟨version, hform⟩
    have hnone : ¬ (table.any fun r => r.category == category && r.kind == kind) = true := by
      simp only [List.any_eq_true, Bool.and_eq_true, beq_iff_eq, not_exists, not_and]
      intro row hrow hcategory hsame
      exact hkind row hrow hcategory ((kind_eq_iff hrow).1 hsame)
    rw [resolveAt, resolve_of_not_mem hform hrows, if_neg hnone]
    rfl

/-- A text is split into a kind and a version exactly if it spells them, and it spells no others;
what is written for a kind and a version is split into them. At each place a tag gets its verdict
and no other: it is found if it is in the table for the category that is expected, and else it has
not the form of a tag, or its kind is in the table for this category, or it is not. -/
theorem resolveAt_eq_iff_verdict (tag : String) (category : Category) (path : String) :
    (∀ kind version, split? tag = some (kind, version) ↔ Spells tag kind version) ∧
    (∀ kind version kind' version', Spells tag kind version → Spells tag kind' version' →
      kind = kind' ∧ version = version') ∧
    (∀ kind version, IsKind kind → version ≤ 4294967295 →
      split? (kind ++ "V" ++ toString version) = some (kind, version)) ∧
    ∀ r, resolveAt path category tag = r ↔ Verdict tag category path r := by
  refine ⟨?_, ?_, ?_, ?_⟩
  · intro kind version
    exact split?_eq_some_iff
  · intro kind version kind' version'
    exact Spells.unique
  · intro kind version hkind hle
    exact split?_eq_some_iff.2 (spells_written hkind hle)
  · intro r
    constructor
    · rintro rfl
      obtain ⟨r, hr⟩ := exists_verdict tag category path
      rwa [hr.resolveAt_eq]
    · exact Verdict.resolveAt_eq

/-- A kind may hold the letter at which it ends, and leading zeros do not count. -/
example : split? "streamVV1V007" = some ("streamVV1", 7) := by decide

end Tag

end StandingQuery
