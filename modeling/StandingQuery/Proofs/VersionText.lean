import Mathlib.Data.List.TakeWhile
import StandingQuery.Proofs.EngineVersion
import StandingQuery.Proofs.Text.Numerals

/-!
# The texts of versions

What counts of a text is what comes before its first dash. It spells a version if it is two or
three fields with points between them, each of which denotes a number of 32 bits. A field has
neither points nor dashes in it, so a text is cut into fields in only one way and spells at
most one version. The text that is written for a version spells it, whatever follows after a dash.

* `EngineVersion.ofText?_eq_some_iff`: a text is read as the version that it spells.
* `EngineVersion.ofText?_toText_append`: a version is read back from its text.
* `EngineVersion.text_tells_version`: these together, with the order of what has been read.
-/

namespace StandingQuery

namespace EngineVersion

/-! ## Fields -/

/-- A field is one or more ASCII digits, after a plus sign perhaps, whose value is a number of 32
bits. -/
def Denotes (field : List Char) (n : Nat) : Prop :=
  ∃ digits, (field = digits ∨ field = '+' :: digits) ∧ digits ≠ [] ∧
    (∀ c ∈ digits, c.isDigit = true) ∧ Nat.ofDigitChars 10 digits 0 = n ∧ n ≤ 4294967295

/-- Two or three fields denote the numbers of a version; the third number is zero if there is no
field for it. -/
inductive FieldsOf (v : EngineVersion) : List (List Char) → Prop
  | two {major minor : List Char} (hmajor : Denotes major v.major.toNat)
      (hminor : Denotes minor v.minor.toNat) (hpatch : v.patch = 0) : FieldsOf v [major, minor]
  | three {major minor patch : List Char} (hmajor : Denotes major v.major.toNat)
      (hminor : Denotes minor v.minor.toNat) (hpatch : Denotes patch v.patch.toNat) :
      FieldsOf v [major, minor, patch]

variable {text : String} {v : EngineVersion} {cs field core : List Char} {n : Nat}

theorem Denotes.le (h : Denotes field n) : n ≤ 4294967295 := by
  obtain ⟨_, _, _, _, _, hle⟩ := h
  exact hle

theorem field?_eq_some_iff {n : UInt32} : field? cs = some n ↔ Denotes cs n.toNat := by
  have hread : ∀ m, Text.Numeral.unsigned Text.max32 cs = .ok m ↔ Denotes cs m :=
    fun m => Text.Numeral.unsigned_eq_ok_iff
  unfold field?
  constructor
  · intro h
    split at h
    · rename_i m hm
      obtain rfl : UInt32.ofNat m = n := Option.some.inj h
      have hdenotes : Denotes cs m := (hread m).1 hm
      rwa [UInt32.toNat_ofNat_of_lt' (Nat.lt_succ_of_le hdenotes.le)]
    · cases h
  · intro h
    rw [(hread n.toNat).2 h]
    simp

theorem Denotes.digit_or_plus (h : Denotes field n) {c : Char} (hc : c ∈ field) :
    c.isDigit = true ∨ c = '+' := by
  obtain ⟨digits, rfl | rfl, _, hdigits, _⟩ := h
  · exact Or.inl (hdigits c hc)
  · rcases List.mem_cons.1 hc with rfl | hc
    · exact Or.inr rfl
    · exact Or.inl (hdigits c hc)

theorem Denotes.point_not_mem (h : Denotes field n) : '.' ∉ field := by
  intro hmem
  rcases h.digit_or_plus hmem with hdigit | hplus
  · exact absurd hdigit (by decide)
  · exact absurd hplus (by decide)

theorem Denotes.dash_not_mem (h : Denotes field n) : '-' ∉ field := by
  intro hmem
  rcases h.digit_or_plus hmem with hdigit | hplus
  · exact absurd hdigit (by decide)
  · exact absurd hplus (by decide)

theorem denotes_toDigits (h : n ≤ 4294967295) : Denotes (Nat.toDigits 10 n) n :=
  Text.Numeral.unsigned_eq_ok_iff.1 (Text.Numeral.unsigned_toDigits h)

/-! ## Texts -/

/-- What counts of a text: all of it, or what is before its first dash. -/
def IsCore (core : List Char) (text : String) : Prop :=
  '-' ∉ core ∧ (text.toList = core ∨ ∃ suffix, text.toList = core ++ '-' :: suffix)

/-- A text spells a version: what counts of it are the fields of the version with points between
them. -/
def Spells (text : String) (v : EngineVersion) : Prop :=
  ∃ core fields, IsCore core text ∧ core = ['.'].intercalate fields ∧ FieldsOf v fields

theorem isCore_iff : IsCore core text ↔ text.toList.takeWhile (· ≠ '-') = core := by
  constructor
  · rintro ⟨hdash, htext⟩
    have hall : ∀ c ∈ core, decide (c ≠ '-') = true := by
      intro c hc
      rw [decide_eq_true_eq]
      rintro rfl
      exact hdash hc
    rcases htext with htext | ⟨suffix, htext⟩
    · rw [htext, List.takeWhile_eq_self_iff]
      exact hall
    · rw [htext, List.takeWhile_append_of_pos hall]
      simp
  · rintro rfl
    constructor
    · intro hmem
      simpa using List.mem_takeWhile_imp hmem
    · have hsplit := List.takeWhile_append_dropWhile (p := (· ≠ '-')) (l := text.toList)
      cases hrest : text.toList.dropWhile (· ≠ '-') with
      | nil =>
        left
        rw [hrest, List.append_nil] at hsplit
        exact hsplit.symm
      | cons c suffix =>
        have hc := List.head?_dropWhile_not (· ≠ '-') text.toList
        rw [hrest] at hc
        obtain rfl : c = '-' := by simpa using hc
        right
        rw [hrest] at hsplit
        exact ⟨suffix, hsplit.symm⟩

/-- A text is read field by field. -/
theorem ofText?_eq_some_iff_fieldsOf :
    ofText? text = some v ↔
      FieldsOf v ((text.toList.takeWhile (· ≠ '-')).splitOn '.') := by
  unfold ofText?
  simp only
  generalize (text.toList.takeWhile (· ≠ '-')).splitOn '.' = fields
  constructor
  · intro h
    split at h
    · rename_i major minor hfields
      cases h
      obtain ⟨a, rest, rfl, ha, hrest⟩ := List.map_eq_cons_iff.1 hfields
      obtain ⟨b, rest, rfl, hb, hrest⟩ := List.map_eq_cons_iff.1 hrest
      obtain rfl := List.map_eq_nil_iff.1 hrest
      exact .two (field?_eq_some_iff.1 ha) (field?_eq_some_iff.1 hb) rfl
    · rename_i major minor patch hfields
      cases h
      obtain ⟨a, rest, rfl, ha, hrest⟩ := List.map_eq_cons_iff.1 hfields
      obtain ⟨b, rest, rfl, hb, hrest⟩ := List.map_eq_cons_iff.1 hrest
      obtain ⟨c, rest, rfl, hc, hrest⟩ := List.map_eq_cons_iff.1 hrest
      obtain rfl := List.map_eq_nil_iff.1 hrest
      exact .three (field?_eq_some_iff.1 ha) (field?_eq_some_iff.1 hb) (field?_eq_some_iff.1 hc)
    · cases h
  · intro h
    obtain ⟨major, minor, patch⟩ := v
    cases h with
    | two hmajor hminor hpatch =>
      cases hpatch
      simp [field?_eq_some_iff.2 hmajor, field?_eq_some_iff.2 hminor]
    | three hmajor hminor hpatch =>
      simp [field?_eq_some_iff.2 hmajor, field?_eq_some_iff.2 hminor, field?_eq_some_iff.2 hpatch]

theorem FieldsOf.ne_nil {fields : List (List Char)} (h : FieldsOf v fields) : fields ≠ [] := by
  cases h <;> exact List.cons_ne_nil _ _

theorem FieldsOf.point_not_mem {fields : List (List Char)} (h : FieldsOf v fields) :
    ∀ field ∈ fields, '.' ∉ field := by
  cases h with
  | two hmajor hminor hpatch => simp [hmajor.point_not_mem, hminor.point_not_mem]
  | three hmajor hminor hpatch =>
    simp [hmajor.point_not_mem, hminor.point_not_mem, hpatch.point_not_mem]

/-- A text is read as the version that it spells. -/
theorem ofText?_eq_some_iff : ofText? text = some v ↔ Spells text v := by
  rw [ofText?_eq_some_iff_fieldsOf]
  constructor
  · intro h
    exact ⟨_, _, isCore_iff.2 rfl, (List.intercalate_splitOn '.').symm, h⟩
  · rintro ⟨core, fields, hcore, hfields, h⟩
    rw [isCore_iff.1 hcore, Text.splitOn_eq_iff.2 ⟨h.ne_nil, h.point_not_mem, hfields.symm⟩]
    exact h

/-! ## Versions that are written -/

/-- The fields that are written for a version. -/
def fields (v : EngineVersion) : List (List Char) :=
  [Nat.toDigits 10 v.major.toNat, Nat.toDigits 10 v.minor.toNat, Nat.toDigits 10 v.patch.toNat]

theorem fieldsOf_fields (v : EngineVersion) : FieldsOf v v.fields :=
  .three (denotes_toDigits (Nat.le_of_lt_succ v.major.toNat_lt))
    (denotes_toDigits (Nat.le_of_lt_succ v.minor.toNat_lt))
    (denotes_toDigits (Nat.le_of_lt_succ v.patch.toNat_lt))

theorem toList_toText (v : EngineVersion) : v.toText.toList = ['.'].intercalate v.fields := by
  simp [toText, fields, Nat.toString_eq_repr, Nat.toList_repr, List.intercalate_cons_cons]

theorem FieldsOf.dash_not_mem {fields : List (List Char)} (h : FieldsOf v fields) :
    '-' ∉ ['.'].intercalate fields := by
  cases h with
  | two hmajor hminor hpatch =>
    simp [List.intercalate_cons_cons, hmajor.dash_not_mem, hminor.dash_not_mem]
  | three hmajor hminor hpatch =>
    simp [List.intercalate_cons_cons, hmajor.dash_not_mem, hminor.dash_not_mem,
      hpatch.dash_not_mem]

/-- A version is read back from its text, also if more follows after a dash. -/
theorem ofText?_toText_append (v : EngineVersion) {suffix : String}
    (h : suffix = "" ∨ ∃ more, suffix = "-" ++ more) : ofText? (v.toText ++ suffix) = some v := by
  apply ofText?_eq_some_iff.2
  refine ⟨_, v.fields, ⟨v.fieldsOf_fields.dash_not_mem, ?_⟩, rfl, v.fieldsOf_fields⟩
  rw [← v.toList_toText]
  rcases h with rfl | ⟨more, rfl⟩
  · left
    simp
  · right
    exact ⟨more.toList, by simp⟩

/-- A text is read as a version exactly if it spells it. A version is read back from its text, also
if a dash and any text follow; and what has been read is compared by its numbers, the major one
first. -/
theorem text_tells_version :
    (∀ text v, ofText? text = some v ↔ Spells text v) ∧
    (∀ v : EngineVersion, ofText? v.toText = some v ∧
      ∀ suffix, ofText? (v.toText ++ "-" ++ suffix) = some v) ∧
    ∀ v w : EngineVersion, v.compare w = cmp v.numbers w.numbers := by
  refine ⟨fun text v => ofText?_eq_some_iff, ?_, compare_eq_cmp⟩
  intro v
  constructor
  · have hread := ofText?_toText_append v (Or.inl rfl)
    rwa [String.append_empty] at hread
  · intro suffix
    rw [String.append_assoc]
    exact ofText?_toText_append v (Or.inr ⟨suffix, rfl⟩)

/-- Signs and leading zeros do not count, and neither does what follows the first dash. -/
example : ofText? "+0.010-rc.1-2" = some ⟨0, 10, 0⟩ := by decide

end EngineVersion

end StandingQuery
