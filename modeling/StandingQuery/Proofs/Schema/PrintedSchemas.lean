import StandingQuery.Proofs.Except
import StandingQuery.Proofs.Schema.Tokens

/-!
# Reading printed types and schemas

A printed type is read back with the levels it has, so the reader's bound on levels is the
only thing that can keep a printed schema from being read. Conversely no type that is read
has more levels than were allowed.

* `readType_render`: a printed type is read back, or too deep for the reader.
* `LogicalSchema.parse_toText_eq_ok_iff`: when a printed schema is read back.
* `parse_toText_iff_depth_le`: what comes of reading a printed schema or a printed type.
* `LogicalSchema.toText_injective`: no two schemas are printed alike.
* `LogicalSchema.withinLimit_of_parse`: the types of a schema that was read are within the bound.
-/

namespace StandingQuery

namespace SqlType

/-- Induction over types, with the types of all fields of a struct as its parts. -/
theorem induct {P : SqlType → Prop} (simple : ∀ t, P (simple t))
    (decimal : ∀ p s, P (decimal p s)) (array : ∀ t, P t → P (array t))
    (map : ∀ k v, P k → P v → P (map k v))
    (struct : ∀ fields, (∀ f ∈ fields, P f.2) → P (struct fields)) (t : SqlType) : P t :=
  @SqlType.rec P (fun fields => ∀ f ∈ fields, P f.2) (fun f => P f.2) simple decimal array map
    struct (fun _ h => absurd h List.not_mem_nil)
    (fun _ _ hf hfs => List.forall_mem_cons.2 ⟨hf, hfs⟩) (fun _ _ h => h) t

theorem fieldsDepth_le_iff {fields : List (String × SqlType)} {n : Nat} :
    fieldsDepth fields ≤ n ↔ ∀ f ∈ fields, f.2.depth ≤ n := by
  induction fields with
  | nil => simp [fieldsDepth]
  | cons f fields ih => rw [fieldsDepth, Nat.max_le, ih, List.forall_mem_cons]

end SqlType

namespace SchemaReader

/-! ## Reading with a bound on levels -/

/-- Reading goes on to `rest` with `x` if `fits` holds, and fails for its depth if not. -/
structure ReadsIf {α : Type} (fits : Prop) (r : Except Fault (α × List Char)) (x : α)
    (rest : List Char) : Prop where
  ok : fits → r = .ok (x, rest)
  tooDeep : ¬ fits → ∃ left, r = .error (.tooDeep left)

namespace ReadsIf

variable {α β : Type} {p q : Prop} {x : α} {y : β} {rest tail : List Char}

theorem of_eq {r : Except Fault (α × List Char)} (hp : p) (h : r = .ok (x, rest)) :
    ReadsIf p r x rest :=
  ⟨fun _ => h, fun hn => absurd hp hn⟩

theorem bind {r : Except Fault (α × List Char)} {f : α × List Char → Except Fault (β × List Char)}
    (hr : ReadsIf p r x rest) (hf : ReadsIf q (f (x, rest)) y tail) :
    ReadsIf (p ∧ q) (r >>= f) y tail := by
  constructor
  · rintro ⟨hp, hq⟩
    rw [hr.ok hp]
    exact hf.ok hq
  · intro hn
    by_cases hp : p
    · rw [hr.ok hp]
      exact hf.tooDeep fun hq => hn ⟨hp, hq⟩
    · obtain ⟨left, he⟩ := hr.tooDeep hp
      exact ⟨left, by rw [he]; rfl⟩

theorem congr {r : Except Fault (α × List Char)} (h : ReadsIf p r x rest) (hpq : p ↔ q) :
    ReadsIf q r x rest := by
  rwa [← hpq]

end ReadsIf

section

variable {levels : Nat} {cs : List Char}

/-- A keyword before a symbol is read as a word. -/
theorem readWord_keyword (word : List Char) (c : Char) (cs : List Char)
    (hw : word.all isWordChar = true) (hne : word ≠ []) (hc : isWordChar c = false) :
    readWord (word ++ c :: cs) = (word, c :: cs) := by
  apply readWord_append (List.all_eq_true.1 hw) hne
  intro d hd
  cases hd
  exact hc

theorem readType_simple (t : SimpleType) (hr : ∀ c ∈ cs.head?, isWordChar c = false) :
    readType (levels + 1) (t.word.toList ++ cs) = .ok (.simple t, cs) := by
  have hw : t.word.toList.all isWordChar = true := by cases t <;> decide
  have hne : t.word.toList ≠ [] := by cases t <;> simp [SimpleType.word]
  have hu : upper t.word.toList = t.word := by cases t <;> decide
  simp only [readType, readWord_append (List.all_eq_true.1 hw) hne hr, hu, SimpleType.ofWord?_word]

theorem readType_decimal : readType (levels + 1) ("DECIMAL".toList ++ '(' :: cs) = do
    let (precision, cs) ← readNumber cs
    let cs ← expectChar ',' cs
    let (scale, cs) ← readNumber cs
    let cs ← expectChar ')' cs
    return (.decimal precision scale, cs) := by
  have hw := readWord_keyword "DECIMAL".toList '(' cs (by decide) (by decide) (by decide)
  have hs : SimpleType.ofWord? (upper "DECIMAL".toList) = none := by rfl
  simp only [readType, hw, hs, expectChar_self cs (show Text.isBlank '(' = false by decide)]
  rfl

theorem readType_array : readType (levels + 1) ("ARRAY".toList ++ '<' :: cs) = do
    let (element, cs) ← readType levels cs
    let cs ← expectChar '>' cs
    return (.array element, cs) := by
  have hw := readWord_keyword "ARRAY".toList '<' cs (by decide) (by decide) (by decide)
  have hs : SimpleType.ofWord? (upper "ARRAY".toList) = none := by rfl
  simp only [readType, hw, hs, expectChar_self cs (show Text.isBlank '<' = false by decide)]
  rfl

theorem readType_map : readType (levels + 1) ("MAP".toList ++ '<' :: cs) = do
    let (key, cs) ← readType levels cs
    let cs ← expectChar ',' cs
    let (value, cs) ← readType levels cs
    let cs ← expectChar '>' cs
    return (.map key value, cs) := by
  have hw := readWord_keyword "MAP".toList '<' cs (by decide) (by decide) (by decide)
  have hs : SimpleType.ofWord? (upper "MAP".toList) = none := by rfl
  simp only [readType, hw, hs, expectChar_self cs (show Text.isBlank '<' = false by decide)]
  rfl

/-- A field of a struct. -/
def readField (levels : Nat) (cs : List Char) : Except Fault ((String × SqlType) × List Char) := do
  let (name, cs) ← readName cs
  let (t, cs) ← readType levels cs
  return ((name, t), cs)

theorem readType_struct : readType (levels + 1) ("STRUCT".toList ++ '<' :: cs) =
    match tryChar '>' cs with
    | (true, cs) => .ok (.struct [], cs)
    | (false, cs) => do
      let (fields, cs) ← commaSeparated (readField levels) cs.length cs
      let cs ← expectChar '>' cs
      return (.struct fields, cs) := by
  have hw := readWord_keyword "STRUCT".toList '<' cs (by decide) (by decide) (by decide)
  have hs : SimpleType.ofWord? (upper "STRUCT".toList) = none := by rfl
  simp only [readType, hw, hs, expectChar_self cs (show Text.isBlank '<' = false by decide)]
  rfl

theorem readType_space : readType (levels + 1) (' ' :: cs) = readType (levels + 1) cs := by
  simp only [readType, readWord_space]

end

/-! ## Lists -/

section

variable {α : Type} {item : List Char → Except Fault (α × List Char)}

/-- The items after the first of a printed list. -/
def renderTail (text : α → List Char) (xs : List α) : List Char :=
  xs.flatMap fun x => ", ".toList ++ text x

theorem length_le_renderTail (text : α → List Char) (xs : List α) :
    xs.length ≤ (renderTail text xs).length := by
  induction xs with
  | nil => simp
  | cons x xs ih =>
    have hsep : ", ".toList.length = 2 := rfl
    simp only [renderTail, List.flatMap_cons, List.length_append, List.length_cons] at ih ⊢
    omega

theorem commaSeparated_space (hspace : ∀ cs, item (' ' :: cs) = item cs) (more : Nat)
    (cs : List Char) : commaSeparated item more (' ' :: cs) = commaSeparated item more cs := by
  cases more <;> simp only [commaSeparated, hspace]

/-- A printed list is read as that list, if each of its items is. -/
theorem commaSeparated_render (text : α → List Char) (fits : α → Prop)
    (hspace : ∀ cs, item (' ' :: cs) = item cs) {rest : List Char} (hr : Follows rest)
    (hc : tryChar ',' rest = (false, rest)) {x : α} {xs : List α} {more : Nat}
    (hm : xs.length ≤ more)
    (hi : ∀ y ∈ x :: xs, ∀ tail, Follows tail → ReadsIf (fits y) (item (text y ++ tail)) y tail) :
    ReadsIf (∀ y ∈ x :: xs, fits y)
      (commaSeparated item more (text x ++ (renderTail text xs ++ rest))) (x :: xs) rest := by
  induction xs generalizing x more with
  | nil =>
    have hx := hi x List.mem_cons_self rest hr
    have hb : ReadsIf (fits x ∧ True) (item (text x ++ rest) >>= fun r => .ok ([r.1], r.2)) [x]
        rest := hx.bind (.of_eq trivial rfl)
    refine ReadsIf.congr ?_ (p := fits x ∧ True) (by simp)
    cases more with
    | zero => exact hb
    | succ more =>
      refine hx.bind (q := True) (.of_eq trivial ?_)
      simp only [hc]
      rfl
  | cons y ys ih =>
    cases more with
    | zero => exact absurd hm (by simp)
    | succ more =>
      have hlen : ys.length ≤ more := by simpa using hm
      have hy := ih hlen fun z hz => hi z (List.mem_cons_of_mem x hz)
      have htail : renderTail text (y :: ys) ++ rest =
          ',' :: ' ' :: (text y ++ (renderTail text ys ++ rest)) := by
        simp [renderTail]
      have hx := hi x List.mem_cons_self (renderTail text (y :: ys) ++ rest) (by
        rw [htail]
        intro c h
        cases h
        exact Or.inl rfl)
      refine ReadsIf.congr (hx.bind (q := (∀ z ∈ y :: ys, fits z) ∧ True) ?_) (by simp)
      have htry : tryChar ',' (renderTail text (y :: ys) ++ rest) =
          (true, ' ' :: (text y ++ (renderTail text ys ++ rest))) := by
        rw [htail]
        simp [tryChar, skipBlank_of_head (show Text.isBlank ',' = false by decide)]
      simp only [htry, commaSeparated_space hspace]
      exact hy.bind (.of_eq trivial rfl)

end

/-! ## Printed types and schemas -/

/-- The text of a field of a struct. -/
def fieldText (f : String × SqlType) : List Char := renderName f.1 ++ ' ' :: f.2.render

theorem renderMoreFields_eq (fields : List (String × SqlType)) :
    SqlType.renderMoreFields fields = renderTail fieldText fields := by
  induction fields with
  | nil => rfl
  | cons f fields ih =>
    have h : SqlType.renderMoreFields (f :: fields) =
        ", ".toList ++ renderName f.1 ++ ' ' :: f.2.render ++ SqlType.renderMoreFields fields := rfl
    simp only [h, ih, renderTail, fieldText, List.flatMap_cons, List.append_assoc]

theorem render_decimal (p s : UInt8) (rest : List Char) :
    (SqlType.decimal p s).render ++ rest =
      "DECIMAL".toList ++ '(' :: (Nat.toDigits 10 p.toNat ++ ',' :: ' ' ::
        (Nat.toDigits 10 s.toNat ++ ')' :: rest)) := by
  have h : (SqlType.decimal p s).render = (s!"DECIMAL({p.toNat}, {s.toNat})").toList := rfl
  simp [h, toString]

theorem render_array (t : SqlType) (rest : List Char) :
    (SqlType.array t).render ++ rest = "ARRAY".toList ++ '<' :: (t.render ++ '>' :: rest) := by
  have h : (SqlType.array t).render = "ARRAY<".toList ++ t.render ++ ['>'] := rfl
  simp [h]

theorem render_map (k v : SqlType) (rest : List Char) :
    (SqlType.map k v).render ++ rest =
      "MAP".toList ++ '<' :: (k.render ++ ',' :: ' ' :: (v.render ++ '>' :: rest)) := by
  have h : (SqlType.map k v).render =
      "MAP<".toList ++ k.render ++ ", ".toList ++ v.render ++ ['>'] := rfl
  simp [h]

theorem render_struct (fields : List (String × SqlType)) (rest : List Char) :
    (SqlType.struct fields).render ++ rest =
      "STRUCT".toList ++ '<' :: (SqlType.renderFields fields ++ '>' :: rest) := by
  have h : (SqlType.struct fields).render =
      "STRUCT<".toList ++ SqlType.renderFields fields ++ ['>'] := rfl
  simp [h]

/-- No type can be read where no level is left. -/
theorem readType_zero (t : SqlType) (cs rest : List Char) :
    ReadsIf (t.depth ≤ 0) (readType 0 cs) t rest :=
  ⟨fun hd => absurd t.depth_pos (by omega), fun _ => ⟨cs, rfl⟩⟩

theorem not_wordChar_head {c : Char} (h : isWordChar c = false) (rest : List Char) :
    ∀ d ∈ (c :: rest).head?, isWordChar d = false := by
  intro d hd
  cases hd
  exact h

theorem ReadsIf.space {t : SqlType} {p : Prop} {levels : Nat} {cs rest : List Char}
    (h : ReadsIf p (readType levels cs) t rest) :
    ReadsIf p (readType levels (' ' :: cs)) t rest := by
  cases levels with
  | zero =>
    refine ⟨fun hp => ?_, fun _ => ⟨' ' :: cs, rfl⟩⟩
    cases h.ok hp
  | succ levels => rwa [readType_space]

/-- A field of a struct is read as that field, if its type is read. -/
theorem readField_render {f : String × SqlType} {levels : Nat} {rest : List Char}
    (ht : ReadsIf (f.2.depth ≤ levels) (readType levels (f.2.render ++ rest)) f.2 rest) :
    ReadsIf (f.2.depth ≤ levels) (readField levels (fieldText f ++ rest)) f rest := by
  obtain ⟨name, t⟩ := f
  have hn : readName (renderName name ++ (' ' :: (t.render ++ rest))) =
      .ok (name, ' ' :: (t.render ++ rest)) := readName_renderName (by simp)
  refine ReadsIf.congr (p := True ∧ t.depth ≤ levels ∧ True) ?_ (by simp)
  rw [fieldText, List.append_assoc, List.cons_append]
  exact ReadsIf.bind (.of_eq trivial hn) (ht.space.bind (.of_eq trivial rfl))

/-- A printed type is read as that type, unless it has more levels than may be read. -/
theorem readType_render (t : SqlType) : ∀ {levels : Nat} {rest : List Char},
    (∀ c ∈ rest.head?, isWordChar c = false) →
      ReadsIf (t.depth ≤ levels) (readType levels (t.render ++ rest)) t rest := by
  have hclose := not_wordChar_head (show isWordChar '>' = false by decide)
  have hcomma := not_wordChar_head (show isWordChar ',' = false by decide)
  have hparen := not_wordChar_head (show isWordChar ')' = false by decide)
  induction t using SqlType.induct with
  | simple t =>
    intro levels rest hr
    cases levels with
    | zero => exact readType_zero _ _ _
    | succ levels => exact .of_eq (by simp [SqlType.depth]) (readType_simple t hr)
  | decimal p s =>
    intro levels rest hr
    cases levels with
    | zero => exact readType_zero _ _ _
    | succ levels =>
      refine .of_eq (by simp [SqlType.depth]) ?_
      have hspace : ∀ cs, readNumber (' ' :: cs) = readNumber cs := fun cs => by
        simp only [readNumber, readWord_space]
      rw [render_decimal, readType_decimal, readNumber_toDigits p (hcomma _)]
      simp only [bind, Except.bind, hspace, readNumber_toDigits s (hparen _),
        expectChar_self _ (show Text.isBlank ',' = false by decide),
        expectChar_self _ (show Text.isBlank ')' = false by decide)]
      rfl
  | array t ih =>
    intro levels rest hr
    cases levels with
    | zero => exact readType_zero _ _ _
    | succ levels =>
      rw [render_array, readType_array]
      refine ((ih (hclose rest)).bind (q := True) (.of_eq trivial ?_)).congr (by
        simp [SqlType.depth])
      simp only [expectChar_self rest (show Text.isBlank '>' = false by decide)]
      rfl
  | map k v ihk ihv =>
    intro levels rest hr
    cases levels with
    | zero => exact readType_zero _ _ _
    | succ levels =>
      rw [render_map, readType_map]
      refine ((ihk (hcomma _)).bind (q := v.depth ≤ levels ∧ True) ?_).congr (by
        rw [SqlType.depth, Nat.succ_le_succ_iff, Nat.max_le, and_true])
      simp only [expectChar_self _ (show Text.isBlank ',' = false by decide)]
      refine (ihv (hclose rest)).space.bind (.of_eq trivial ?_)
      simp only [expectChar_self rest (show Text.isBlank '>' = false by decide)]
      rfl
  | struct fields ih =>
    intro levels rest hr
    cases levels with
    | zero => exact readType_zero _ _ _
    | succ levels =>
      rw [render_struct, readType_struct]
      cases fields with
      | nil =>
        have htry : tryChar '>' ('>' :: rest) = (true, rest) := by
          simp [tryChar, skipBlank_of_head (show Text.isBlank '>' = false by decide)]
        refine .of_eq (by simp [SqlType.depth, SqlType.fieldsDepth]) ?_
        simp only [SqlType.renderFields, List.nil_append, htry]
      | cons f fields =>
        have hf : SqlType.renderFields (f :: fields) ++ '>' :: rest =
            fieldText f ++ (renderTail fieldText fields ++ '>' :: rest) := by
          simp only [SqlType.renderFields, renderMoreFields_eq, fieldText, List.append_assoc,
            List.cons_append]
        have htry : tryChar '>' (fieldText f ++ (renderTail fieldText fields ++ '>' :: rest)) =
            (false, fieldText f ++ (renderTail fieldText fields ++ '>' :: rest)) := by
          simp [fieldText, renderName, tryChar,
            skipBlank_of_head (show Text.isBlank '`' = false by decide)]
        have hspace : ∀ cs, readField levels (' ' :: cs) = readField levels cs := fun cs => by
          simp only [readField, readName_space]
        have hend : tryChar ',' ('>' :: rest) = (false, '>' :: rest) := by
          simp [tryChar, skipBlank_of_head (show Text.isBlank '>' = false by decide)]
        have hlen : fields.length ≤
            (fieldText f ++ (renderTail fieldText fields ++ '>' :: rest)).length := by
          have := length_le_renderTail fieldText fields
          simp only [List.length_append]
          omega
        have hfollows : Follows ('>' :: rest) := by
          intro c hc
          cases hc
          exact Or.inr rfl
        have hitems := commaSeparated_render fieldText (fun f => f.2.depth ≤ levels) hspace
          hfollows hend hlen
          fun g hg tail htail => readField_render (ih g hg htail.not_wordChar)
        simp only [hf, htry]
        refine (hitems.bind (q := True) (.of_eq trivial ?_)).congr (by
          rw [SqlType.depth, Nat.add_le_add_iff_right, SqlType.fieldsDepth_le_iff, and_true])
        simp only [expectChar_self rest (show Text.isBlank '>' = false by decide)]
        rfl

/-- A column with a type of no more than `levels` levels. -/
def readColumnUpTo (levels : Nat) (cs : List Char) : Except Fault (Column × List Char) := do
  let (name, cs) ← readName cs
  let (type, cs) ← readType levels cs
  let (isKey, cs) := tryKeyword "KEY" cs
  return (⟨name, type, isKey⟩, cs)

/-- Columns with types of no more than `levels` levels. -/
def readColumnsUpTo (levels : Nat) (cs : List Char) : Except Fault (List Column × List Char) :=
  commaSeparated (readColumnUpTo levels) cs.length cs

/-- A printed column is read as that column, unless its type has too many levels. -/
theorem readColumnUpTo_render (levels : Nat) (c : Column) {rest : List Char}
    (hr : Follows rest) :
    ReadsIf (c.type.depth ≤ levels) (readColumnUpTo levels (c.render ++ rest)) c rest := by
  obtain ⟨name, type, isKey⟩ := c
  have hkey : ∀ c ∈ ((if isKey then " KEY".toList else []) ++ rest).head?,
      isWordChar c = false := by
    cases isKey with
    | true => exact not_wordChar_head (by decide) _
    | false => exact hr.not_wordChar
  have htry : tryKeyword "KEY" ((if isKey then " KEY".toList else []) ++ rest) =
      (isKey, rest) := by
    cases isKey with
    | true =>
      have hw : readWord (" KEY".toList ++ rest) = ("KEY".toList, rest) :=
        (readWord_space _).trans
          (readWord_append (List.all_eq_true.1 (by decide)) (by decide) hr.not_wordChar)
      rw [if_pos rfl, tryKeyword, hw]
      exact if_pos (by rfl)
    | false =>
      have hu : upper (readWord rest).1 = "" := by
        cases rest with
        | nil => rfl
        | cons c cs =>
          have hw : isWordChar c = false := hr.not_wordChar c rfl
          have hb : Text.isBlank c = false := by
            rcases hr c rfl with rfl | rfl <;> decide
          simp [readWord, skipBlank_of_head hb, hw, upper]
      simp [tryKeyword, hu]
  have ht : ReadsIf (type.depth ≤ levels) (readType levels (' ' :: (type.render ++ _)))
      type _ := (readType_render type hkey).space
  have hn : readName (renderName name ++ (' ' :: (type.render ++
      ((if isKey then " KEY".toList else []) ++ rest)))) = .ok (name, _) :=
    readName_renderName (by simp)
  refine ReadsIf.congr (p := True ∧ type.depth ≤ levels ∧ True) ?_ (by simp)
  rw [Column.render, List.append_assoc, List.append_assoc, List.cons_append]
  refine ReadsIf.bind (.of_eq trivial hn) (ht.bind (.of_eq trivial ?_))
  simp only [htry]
  rfl

namespace ReadsIf

variable {α : Type} {fits : Prop} {x : α} {cs : List Char}
  {item : List Char → Except Fault (α × List Char)}

/-- What is read to the end of a text is all of the text. -/
theorem whole_eq_ok (h : ReadsIf fits (item cs) x []) (hfits : fits) :
    whole item (String.ofList cs) = .ok x := by
  simp only [whole, String.toList_ofList, h.ok hfits]
  rfl

/-- A text in which something is too deep is refused for that. -/
theorem whole_eq_tooDeep (h : ReadsIf fits (item cs) x []) (hfits : ¬ fits) :
    ∃ offset, whole item (String.ofList cs) = .error (.tooDeep offset) := by
  obtain ⟨left, hdeep⟩ := h.tooDeep hfits
  have hread : item (String.ofList cs).toList = .error (.tooDeep left) := by
    rw [String.toList_ofList, hdeep]
  refine ⟨utf8Size (String.ofList cs).toList - utf8Size left, ?_⟩
  simp only [whole, hread]
  rfl

end ReadsIf

end SchemaReader

namespace LogicalSchema

open SchemaReader

theorem render_eq {s : LogicalSchema} {c : Column} {cs : List Column} (h : s.columns = c :: cs) :
    s.render = c.render ++ (renderTail Column.render cs ++ []) := by
  rw [LogicalSchema.render, h, List.append_nil, List.map_cons]
  clear h
  induction cs generalizing c with
  | nil => simp [renderTail]
  | cons d cs ih =>
    rw [List.map_cons, List.intercalate_cons_cons, ih]
    simp [renderTail]

theorem ofColumns_columns (s : LogicalSchema) : ofColumns s.columns = .ok s := by
  unfold ofColumns
  split
  · rename_i h
    rw [s.faultless] at h
    cases h
  · rfl

theorem readColumns_render (levels : Nat) (s : LogicalSchema) :
    ReadsIf (∀ c ∈ s.columns, c.type.depth ≤ levels)
      (readColumnsUpTo levels s.render) s.columns [] := by
  obtain ⟨c, cs, hcs⟩ := List.exists_cons_of_ne_nil s.columns_ne_nil
  have hspace : ∀ cs, readColumnUpTo levels (' ' :: cs) = readColumnUpTo levels cs :=
    fun cs => by simp only [readColumnUpTo, readName_space]
  have hlen : cs.length ≤ s.render.length := by
    have := length_le_renderTail Column.render cs
    rw [render_eq hcs, List.length_append, List.length_append]
    omega
  have hend : Follows [] := fun _ hc => absurd hc (by simp)
  have hitems := commaSeparated_render (x := c) Column.render
    (fun c => c.type.depth ≤ levels) hspace hend rfl hlen
    fun d _ tail htail => readColumnUpTo_render levels d htail
  rwa [← render_eq hcs, ← hcs] at hitems

/-- A printed schema can be read with as many levels as it has, so no two schemas have the same
text. -/
theorem toText_injective : Function.Injective toText := by
  intro s t hst
  let depths := (s.columns ++ t.columns).map fun c => c.type.depth
  have hdepth : ∀ c ∈ s.columns ++ t.columns, c.type.depth ≤ depths.max?.getD 0 := fun c hc =>
    List.le_max?_getD_of_mem (List.mem_map_of_mem hc)
  have hrender : s.render = t.render := String.ofList_injective hst
  have hs := (s.readColumns_render _).ok fun c hc => hdepth c (List.mem_append_left _ hc)
  have ht := (t.readColumns_render _).ok fun c hc => hdepth c (List.mem_append_right _ hc)
  rw [hrender, ht] at hs
  have hcolumns : t.columns = s.columns := (Prod.mk.inj (Except.ok.inj hs)).1
  cases s
  cases t
  cases hcolumns
  rfl

/-- No type of a column has more levels than the reader allows. -/
def WithinLimit (s : LogicalSchema) : Prop := ∀ c ∈ s.columns, c.type.depth ≤ maxTypeDepth

theorem parse_eq (text : String) :
    parse text = whole (readColumnsUpTo maxTypeDepth) text >>= ofColumns := rfl

/-- The printed text of a schema is read as that schema, if no type has too many levels. -/
theorem parse_toText {s : LogicalSchema} (h : s.WithinLimit) : parse s.toText = .ok s := by
  rw [parse_eq, toText, (s.readColumns_render maxTypeDepth).whole_eq_ok h]
  exact s.ofColumns_columns

/-- A schema with a type of too many levels cannot be read back. -/
theorem parse_toText_tooDeep {s : LogicalSchema} (h : ¬ s.WithinLimit) :
    ∃ offset, parse s.toText = .error (.tooDeep offset) := by
  obtain ⟨offset, hdeep⟩ := (s.readColumns_render maxTypeDepth).whole_eq_tooDeep h
  refine ⟨offset, ?_⟩
  rw [parse_eq, toText, hdeep]
  rfl

/-- The printed text of a schema is read as that schema or not at all. -/
theorem parse_toText_eq_ok_iff {s t : LogicalSchema} :
    parse s.toText = .ok t ↔ s.WithinLimit ∧ t = s := by
  by_cases h : s.WithinLimit
  · rw [parse_toText h, Except.ok.injEq]
    exact ⟨fun hst => ⟨h, hst.symm⟩, fun hst => hst.2.symm⟩
  · obtain ⟨offset, he⟩ := parse_toText_tooDeep h
    rw [he]
    constructor
    · intro hn
      cases hn
    · intro hn
      exact absurd hn.1 h

end LogicalSchema

namespace SqlType

open SchemaReader

theorem readsIf_render (t : SqlType) :
    ReadsIf (t.depth ≤ maxTypeDepth) (readType maxTypeDepth t.render) t [] := by
  have hend : ∀ c ∈ ([] : List Char).head?, isWordChar c = false := nofun
  have hread : ReadsIf (t.depth ≤ maxTypeDepth) (readType maxTypeDepth (t.render ++ [])) t [] :=
    readType_render t hend
  rwa [List.append_nil] at hread

end SqlType

/-- If reading succeeds or fails for the depth as `fits` holds or not, the outcome tells which. -/
theorem outcome_iff {α : Type} {fits : Prop} {r : Except SchemaError α} {x : α}
    (hok : fits → r = .ok x) (hdeep : ¬ fits → ∃ offset, r = .error (.tooDeep offset)) :
    (r = .ok x ↔ fits) ∧ ((∃ offset, r = .error (.tooDeep offset)) ↔ ¬ fits) := by
  by_cases h : fits
  · simp [hok h, h]
  · obtain ⟨offset, hr⟩ := hdeep h
    simp [hr, h]

/-- The printed text of a schema, or of a single type, is read back if no type has more than 64
levels, and else it is refused for its depth. -/
theorem parse_toText_iff_depth_le :
    (∀ s : LogicalSchema,
      (LogicalSchema.parse s.toText = .ok s ↔ ∀ c ∈ s.columns, c.type.depth ≤ 64) ∧
      ((∃ offset, LogicalSchema.parse s.toText = .error (.tooDeep offset)) ↔
        ∃ c ∈ s.columns, 64 < c.type.depth)) ∧
    ∀ t : SqlType,
      (SqlType.parse t.toText = .ok t ↔ t.depth ≤ 64) ∧
      ((∃ offset, SqlType.parse t.toText = .error (.tooDeep offset)) ↔ 64 < t.depth) := by
  constructor
  · intro s
    have hlimit : (∃ c ∈ s.columns, 64 < c.type.depth) ↔ ¬ s.WithinLimit := by
      simp only [LogicalSchema.WithinLimit, maxTypeDepth, not_forall, Nat.not_le, exists_prop]
    rw [hlimit]
    exact outcome_iff LogicalSchema.parse_toText LogicalSchema.parse_toText_tooDeep
  · intro t
    rw [← Nat.not_le]
    exact outcome_iff t.readsIf_render.whole_eq_ok t.readsIf_render.whole_eq_tooDeep

/-! ## Types that have been read -/

namespace SchemaReader

theorem commaSeparated_forall {α : Type} {P : α → Prop}
    {item : List Char → Except Fault (α × List Char)}
    (hitem : ∀ {cs x rest}, item cs = .ok (x, rest) → P x) {more : Nat} {cs rest : List Char}
    {xs : List α} (h : commaSeparated item more cs = .ok (xs, rest)) : ∀ x ∈ xs, P x := by
  induction more generalizing cs xs with
  | zero =>
    simp only [commaSeparated, bind_eq_ok, pure_eq_ok] at h
    obtain ⟨⟨x, tail⟩, hx, he⟩ := h
    cases he
    exact List.forall_mem_singleton.2 (hitem hx)
  | succ more ih =>
    simp only [commaSeparated, bind_eq_ok] at h
    obtain ⟨⟨x, tail⟩, hx, h⟩ := h
    split at h
    · simp only [bind_eq_ok, pure_eq_ok] at h
      obtain ⟨⟨ys, end'⟩, hys, he⟩ := h
      cases he
      exact List.forall_mem_cons.2 ⟨hitem hx, ih hys⟩
    · cases h
      exact List.forall_mem_singleton.2 (hitem hx)

/-- A type that is read has no more levels than were allowed. -/
theorem readType_depth_le {levels : Nat} {cs rest : List Char} {t : SqlType}
    (h : readType levels cs = .ok (t, rest)) : t.depth ≤ levels := by
  induction levels generalizing cs rest t with
  | zero => cases h
  | succ levels ih =>
    unfold readType at h
    simp only at h
    split at h
    · cases h
      exact Nat.succ_le_succ (Nat.zero_le _)
    split at h
    · simp only [bind_eq_ok, pure_eq_ok] at h
      obtain ⟨_, _, _, _, _, _, _, _, _, _, he⟩ := h
      cases he
      exact Nat.succ_le_succ (Nat.zero_le _)
    split at h
    · simp only [bind_eq_ok, pure_eq_ok] at h
      obtain ⟨_, _, ⟨t, _⟩, ht, _, _, he⟩ := h
      cases he
      exact Nat.succ_le_succ (ih ht)
    split at h
    · simp only [bind_eq_ok, pure_eq_ok] at h
      obtain ⟨_, _, ⟨k, _⟩, hk, _, _, ⟨v, _⟩, hv, _, _, he⟩ := h
      cases he
      exact Nat.succ_le_succ (Nat.max_le.2 ⟨ih hk, ih hv⟩)
    split at h
    · simp only [bind_eq_ok] at h
      obtain ⟨_, _, h⟩ := h
      split at h
      · cases h
        exact Nat.succ_le_succ (Nat.zero_le _)
      · simp only [bind_eq_ok, pure_eq_ok] at h
        obtain ⟨⟨fields, _⟩, hfields, _, _, he⟩ := h
        cases he
        refine Nat.succ_le_succ (SqlType.fieldsDepth_le_iff.2 ?_)
        refine commaSeparated_forall (P := fun f => f.2.depth ≤ levels) ?_ hfields
        intro cs f rest hf
        simp only [bind_eq_ok, pure_eq_ok] at hf
        obtain ⟨_, _, ⟨t, _⟩, ht, he⟩ := hf
        cases he
        exact ih ht
    · cases h

theorem readColumn_depth_le {cs rest : List Char} {c : Column}
    (h : readColumn cs = .ok (c, rest)) : c.type.depth ≤ maxTypeDepth := by
  simp only [readColumn, bind_eq_ok, pure_eq_ok] at h
  obtain ⟨_, _, ⟨t, _⟩, ht, he⟩ := h
  cases he
  exact readType_depth_le ht

end SchemaReader

/-- The types of a schema that was read are within the limit. -/
theorem LogicalSchema.withinLimit_of_parse {text : String} {s : LogicalSchema}
    (h : parse text = .ok s) : s.WithinLimit := by
  simp only [parse, SchemaReader.whole, bind_eq_ok, mapError_eq_ok, pure_eq_ok] at h
  obtain ⟨columns, ⟨⟨xs, rest⟩, hxs, _, _, rfl⟩, hs⟩ := h
  have hc : s.columns = xs := by
    unfold ofColumns at hs
    split at hs
    · cases hs
    · cases hs
      rfl
  intro c hmem
  exact SchemaReader.commaSeparated_forall SchemaReader.readColumn_depth_le hxs c (hc ▸ hmem)

end StandingQuery
