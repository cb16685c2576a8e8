import StandingQuery.Proofs.Schema.Columns
import StandingQuery.Proofs.Schema.PrintedSchemas
import StandingQuery.Proofs.Schema.Spellings

/-!
# The grammar of schemas

The reader of schemas accepts exactly the spellings of schemas, and reads from each the schema
that it spells. Each reader is sound: what it has read led the text. And each is complete: it
reads what leads the text, as long as nothing comes after it that it would take for more.

* `SchemaReader.readName_eq_ok_iff` and its like: what the readers of tokens accept.
* `SchemaReader.readType_eq_ok_iff`: types.
* `SchemaReader.Recognizes.commaSeparated_sound`, `commaSeparated_complete`: lists.
* `LogicalSchema.parse_iff_spelledBy`: the texts of schemas.
-/

namespace StandingQuery

namespace SchemaReader

/-! ## Reading tokens -/

section

variable {c : Char} {cs ds rest : List Char}

theorem leads_symbol_iff (hc : c ∈ SchemaToken.punctuation) :
    (SchemaToken.symbol c).Leads cs rest ↔ skipBlank cs = c :: rest := by
  constructor
  · rintro ⟨lexeme, ⟨_, rfl⟩, _, hcs⟩
    exact hcs
  · intro hcs
    exact ⟨[c], ⟨hc, rfl⟩, fun _ _ => ⟨nofun, nofun⟩, hcs⟩

theorem tryChar_eq_true_iff (hc : c ∈ SchemaToken.punctuation) :
    tryChar c cs = (true, rest) ↔ (SchemaToken.symbol c).Leads cs rest := by
  rw [leads_symbol_iff hc, tryChar]
  cases skipBlank cs with
  | nil => simp
  | cons d ds => by_cases hd : d = c <;> simp [hd]

/-- Where a symbol does not come next, the white space before what comes instead is skipped. -/
theorem tryChar_eq_false_iff (hc : c ∈ SchemaToken.punctuation) :
    tryChar c cs = (false, rest) ↔
      (∀ tail, ¬ (SchemaToken.symbol c).Leads cs tail) ∧ rest = skipBlank cs := by
  simp only [leads_symbol_iff hc]
  rw [tryChar]
  cases skipBlank cs with
  | nil => simp [eq_comm]
  | cons d ds =>
    by_cases hd : d = c
    · simp [hd]
    · simp [hd, Ne.symm hd, eq_comm]

theorem expectChar_eq_ok_iff (hc : c ∈ SchemaToken.punctuation) :
    expectChar c cs = .ok rest ↔ (SchemaToken.symbol c).Leads cs rest := by
  rw [← tryChar_eq_true_iff hc, expectChar]
  rcases tryChar c cs with ⟨_ | _, tail⟩ <;> simp

/-- The characters before the back-quote that ends a name are those of the name, written with
their back-quotes doubled. -/
theorem closeName_eq_some_iff {name : List Char} :
    closeName cs = some (name, rest) ↔
      cs = name.flatMap renderNameChar ++ '`' :: rest ∧ ∀ c ∈ rest.head?, c ≠ '`' := by
  constructor
  · intro h
    fun_induction closeName cs generalizing name with
    | case1 => cases h
    | case2 cs ih =>
      obtain ⟨⟨n, r⟩, hn, he⟩ := Option.map_eq_some_iff.1 h
      cases he
      obtain ⟨rfl, hr⟩ := ih hn
      exact ⟨by simp [renderNameChar], hr⟩
    | case3 cs hnot =>
      cases h
      refine ⟨rfl, ?_⟩
      rintro c hc rfl
      obtain ⟨ds, rfl⟩ := List.head?_eq_some_iff.1 hc
      exact hnot ds rfl
    | case4 c cs hnot hquote ih =>
      obtain ⟨⟨n, r⟩, hn, he⟩ := Option.map_eq_some_iff.1 h
      cases he
      obtain ⟨rfl, hr⟩ := ih hn
      have hc : c ≠ '`' := fun hc => hquote hc
      exact ⟨by simp [renderNameChar, hc], hr⟩
  · rintro ⟨rfl, hr⟩
    exact closeName_render hr

theorem readName_eq_ok_iff {name : String} :
    readName cs = .ok (name, rest) ↔ (SchemaToken.name name).Leads cs rest := by
  have hleads : (SchemaToken.name name).Leads cs rest ↔
      skipBlank cs = renderName name ++ rest ∧ ∀ c ∈ rest.head?, c ≠ '`' := by
    constructor
    · rintro ⟨lexeme, rfl, hends, hcs⟩
      exact ⟨hcs, fun c hc => (hends c hc).2 rfl⟩
    · rintro ⟨hcs, hrest⟩
      exact ⟨_, rfl, fun c hc => ⟨nofun, fun _ => hrest c hc⟩, hcs⟩
  rw [hleads, readName, expectChar, tryChar]
  cases skipBlank cs with
  | nil => simp [renderName]
  | cons d ds =>
    by_cases hd : d = '`'
    · subst hd
      simp only [if_true]
      have hname : '`' :: ds = renderName name ++ rest ↔
          ds = name.toList.flatMap renderNameChar ++ '`' :: rest := by
        simp [renderName]
      rw [hname, ← closeName_eq_some_iff]
      cases hclose : closeName ds with
      | none => simp
      | some found =>
        obtain ⟨chars, tail⟩ := found
        simp only [Except.ok.injEq, Prod.mk.injEq, Option.some.injEq, ← String.toList_inj,
          String.toList_ofList]
    · simp [hd, renderName]

/-- A word is read up to the first character that belongs to no word. -/
theorem readWord_eq_iff {word : List Char} :
    readWord cs = (word, rest) ↔ skipBlank cs = word ++ rest ∧
      (∀ c ∈ word, isWordChar c = true) ∧ ∀ c ∈ rest.head?, isWordChar c = false := by
  constructor
  · intro h
    cases h
    refine ⟨List.takeWhile_append_dropWhile.symm, fun _ hc => List.mem_takeWhile_imp hc, ?_⟩
    intro c hc
    have hstop := List.head?_dropWhile_not isWordChar (skipBlank cs)
    rw [Option.mem_def.1 hc] at hstop
    exact hstop
  · rintro ⟨hcs, hword, hrest⟩
    have htail : rest.takeWhile isWordChar = [] ∧ rest.dropWhile isWordChar = rest := by
      cases rest with
      | nil => exact ⟨rfl, rfl⟩
      | cons d ds => simp [hrest d rfl]
    simp only [readWord, hcs, List.takeWhile_append_of_pos hword,
      List.dropWhile_append_of_pos hword, htail, List.append_nil]

theorem leads_word_iff {text : String} (hne : text ≠ "") :
    (SchemaToken.word text).Leads cs rest ↔
      upper (readWord cs).1 = text ∧ (readWord cs).2 = rest := by
  constructor
  · rintro ⟨lexeme, ⟨_, hchars, rfl⟩, hends, hcs⟩
    have hread : readWord cs = (lexeme, rest) :=
      readWord_eq_iff.2 ⟨hcs, hchars, fun c hc => (hends c hc).1 rfl⟩
    rw [hread]
    exact ⟨rfl, rfl⟩
  · rintro ⟨rfl, rfl⟩
    obtain ⟨hcs, hchars, hrest⟩ := readWord_eq_iff.1 (Eq.refl (readWord cs))
    refine ⟨_, ⟨?_, hchars, rfl⟩, fun c hc => ⟨fun _ => hrest c hc, nofun⟩, hcs⟩
    intro (hnil : (readWord cs).1 = [])
    rw [hnil] at hne
    exact hne rfl

theorem tryKeyword_eq_true_iff {keyword : String} (hne : keyword ≠ "") :
    tryKeyword keyword cs = (true, rest) ↔ (SchemaToken.word keyword).Leads cs rest := by
  rw [leads_word_iff hne, tryKeyword]
  by_cases h : upper (readWord cs).1 = keyword <;> simp [h]

theorem tryKeyword_eq_false_iff {keyword : String} (hne : keyword ≠ "") :
    tryKeyword keyword cs = (false, rest) ↔
      (∀ tail, ¬ (SchemaToken.word keyword).Leads cs tail) ∧ rest = cs := by
  simp only [leads_word_iff hne, tryKeyword]
  by_cases h : upper (readWord cs).1 = keyword <;> simp [h, eq_comm]

theorem readNumber_eq_ok_iff {n : UInt8} :
    readNumber cs = .ok (n, rest) ↔ (SchemaToken.number n).Leads cs rest := by
  obtain ⟨hcs, hchars, hrest⟩ := readWord_eq_iff.1 (Eq.refl (readWord cs))
  have hread : readNumber cs = .ok (n, rest) ↔
      Text.Numeral.unsigned Text.max8 (readWord cs).1 = .ok n.toNat ∧ (readWord cs).2 = rest := by
    unfold readNumber
    simp only
    cases hvalue : Text.Numeral.unsigned Text.max8 (readWord cs).1 with
    | error fault => simp
    | ok m =>
      obtain ⟨_, _, _, _, _, hle⟩ := Text.Numeral.unsigned_eq_ok_iff.1 hvalue
      have hm : UInt8.ofNat m = n ↔ m = n.toNat := by
        rw [← UInt8.toNat_inj, UInt8.toNat_ofNat_of_lt' (Nat.lt_succ_of_le hle)]
      simp [hm]
  rw [hread, Text.Numeral.unsigned_eq_ok_iff]
  constructor
  · rintro ⟨⟨ds, hds, hne, hdigits, hvalue, _⟩, rfl⟩
    rcases hds with rfl | hplus
    · exact ⟨_, ⟨hne, hdigits, hvalue⟩, fun c hc => ⟨fun _ => hrest c hc, nofun⟩, hcs⟩
    · have hmem : '+' ∈ (readWord cs).1 := by
        rw [hplus]
        exact List.mem_cons_self
      exact absurd (hchars '+' hmem) (by decide)
  · rintro ⟨lexeme, ⟨hne, hdigits, hvalue⟩, hends, hskip⟩
    have hword : readWord cs = (lexeme, rest) :=
      readWord_eq_iff.2 ⟨hskip, fun c hc => isWordChar_of_isDigit (hdigits c hc),
        fun c hc => (hends c hc).1 rfl⟩
    rw [hword]
    exact ⟨⟨lexeme, Or.inl rfl, hne, hdigits, hvalue, Nat.le_of_lt_succ n.toNat_lt⟩, rfl⟩

end

/-! ## Lists -/

/-- An item reader is sound for the tokens of what `fits`, and complete where no word comes
after them. -/
structure Recognizes {α : Type} (item : List Char → Except Fault (α × List Char))
    (tokens : α → List SchemaToken) (fits : α → Prop) : Prop where
  sound : ∀ {cs x rest}, item cs = .ok (x, rest) → fits x ∧ Leads (tokens x) cs rest
  complete : ∀ {cs x rest}, fits x → Leads (tokens x) cs rest →
    (∀ c ∈ (skipBlank rest).head?, isWordChar c = false) → item cs = .ok (x, rest)

section

variable {α : Type} {item : List Char → Except Fault (α × List Char)}
  {tokens : α → List SchemaToken} {fits : α → Prop} {cs rest tail : List Char} {xs : List α}

/-- A list that is read leads the text, and all of its items fit. -/
theorem Recognizes.commaSeparated_sound (h : Recognizes item tokens fits) {more : Nat}
    (hread : commaSeparated item more cs = .ok (xs, rest)) :
    xs ≠ [] ∧ (∀ x ∈ xs, fits x) ∧
      ∃ tail, Leads (commaTokens (xs.map tokens)) cs tail ∧ skipBlank rest = skipBlank tail := by
  -- A list of one item ends where its item does, white space apart.
  have hlast : ∀ {cs x tail}, item cs = .ok (x, tail) → [x] ≠ [] ∧ (∀ y ∈ [x], fits y) ∧
      Leads (commaTokens ([x].map tokens)) cs tail := by
    intro cs x tail hx
    obtain ⟨hfits, hleads⟩ := h.sound hx
    refine ⟨List.cons_ne_nil _ _, List.forall_mem_singleton.2 hfits, ?_⟩
    simpa [commaTokens] using hleads
  induction more generalizing cs xs with
  | zero =>
    simp only [commaSeparated, bind_eq_ok, pure_eq_ok] at hread
    obtain ⟨⟨x, tail⟩, hx, he⟩ := hread
    cases he
    obtain ⟨hne, hfits, hleads⟩ := hlast hx
    exact ⟨hne, hfits, _, hleads, rfl⟩
  | succ more ih =>
    simp only [commaSeparated, bind_eq_ok] at hread
    obtain ⟨⟨x, tail⟩, hx, hread⟩ := hread
    split at hread
    · rename_i after hcomma
      simp only [bind_eq_ok, pure_eq_ok] at hread
      obtain ⟨⟨ys, end'⟩, hys, he⟩ := hread
      cases he
      obtain ⟨hfits, hleads⟩ := h.sound hx
      obtain ⟨hne, hall, last, hrest, hskip⟩ := ih hys
      refine ⟨List.cons_ne_nil _ _, List.forall_mem_cons.2 ⟨hfits, hall⟩, last, ?_, hskip⟩
      obtain ⟨y, ys, rfl⟩ := List.exists_cons_of_ne_nil hne
      have hsymbol := (tryChar_eq_true_iff (by decide)).1 hcomma
      simp only [List.map_cons, commaTokens_cons_cons, leads_append, leads_cons]
      exact ⟨tail, hleads, after, hsymbol, hrest⟩
    · rename_i after hcomma
      cases hread
      obtain ⟨hne, hfits, hleads⟩ := hlast hx
      obtain ⟨_, rfl⟩ := (tryChar_eq_false_iff (by decide)).1 hcomma
      exact ⟨hne, hfits, tail, hleads, skipBlank_skipBlank tail⟩

/-- A list that leads the text is read, if its items fit, nothing after it belongs to it, and
as many items are allowed as there are characters. -/
theorem Recognizes.commaSeparated_complete (h : Recognizes item tokens fits) {more : Nat}
    (hmore : cs.length ≤ more) (htokens : ∀ x ∈ xs, tokens x ≠ []) (hne : xs ≠ [])
    (hfits : ∀ x ∈ xs, fits x) (hleads : Leads (commaTokens (xs.map tokens)) cs tail)
    (htail : ∀ c ∈ (skipBlank tail).head?, c = '>') :
    commaSeparated item more cs = .ok (xs, skipBlank tail) := by
  induction more generalizing cs xs with
  | zero =>
    obtain ⟨x, xs, rfl⟩ := List.exists_cons_of_ne_nil hne
    have hlen := hleads.length_le
    have hpos := List.length_pos_iff.2 (htokens x List.mem_cons_self)
    obtain ⟨ts, hts⟩ := exists_commaTokens_cons (tokens x) (xs.map tokens)
    rw [List.map_cons, hts, List.length_append] at hlen
    omega
  | succ more ih =>
    obtain ⟨x, xs, rfl⟩ := List.exists_cons_of_ne_nil hne
    obtain ⟨hx, hxs⟩ := List.forall_mem_cons.1 hfits
    obtain ⟨hxtokens, hxstokens⟩ := List.forall_mem_cons.1 htokens
    cases xs with
    | nil =>
      have hlast : Leads (tokens x) cs tail := by simpa [commaTokens] using hleads
      have hitem : item cs = .ok (x, tail) := by
        apply h.complete hx hlast
        intro c hc
        rw [htail c hc]
        decide
      have hcomma : tryChar ',' tail = (false, skipBlank tail) := by
        refine (tryChar_eq_false_iff (by decide)).2 ⟨?_, rfl⟩
        intro after hafter
        rw [leads_symbol_iff (by decide)] at hafter
        have := htail ',' (by rw [hafter]; rfl)
        cases this
      simp only [commaSeparated, hitem, bind, Except.bind, hcomma]
      rfl
    | cons y ys =>
      simp only [List.map_cons, commaTokens_cons_cons, leads_append, leads_cons] at hleads
      obtain ⟨mid, hmid, after, hafter, hrest⟩ := hleads
      have hitem : item cs = .ok (x, mid) := by
        apply h.complete hx hmid
        intro c hc
        rw [(leads_symbol_iff (by decide)).1 hafter] at hc
        cases hc
        decide
      have hlen : after.length ≤ more := by
        have hfirst := hmid.length_le
        have hcommaLeads : Leads [.symbol ','] mid after := ⟨after, hafter, rfl⟩
        have hsecond := hcommaLeads.length_le
        have hpos := List.length_pos_iff.2 hxtokens
        simp only [List.length_singleton] at hsecond
        omega
      have hys := ih hlen hxstokens (List.cons_ne_nil _ _) hxs hrest
      have hcomma := (tryChar_eq_true_iff (by decide)).2 hafter
      simp only [commaSeparated, hitem, bind, Except.bind, hcomma, hys]
      rfl

end

/-! ## Types -/

section

variable {levels : Nat} {cs rest : List Char} {t : SqlType}

/-- The word that comes first tells the kind of type that is read. -/
theorem word_of_readType (h : readType (levels + 1) cs = .ok (t, rest)) :
    upper (readWord cs).1 = t.word := by
  unfold readType at h
  simp only at h
  split at h
  · rename_i s hs
    cases h
    have hword := List.find?_some hs
    exact (eq_of_beq hword).symm
  split at h
  · rename_i hword
    simp only [bind_eq_ok, pure_eq_ok] at h
    obtain ⟨_, _, _, _, _, _, _, _, _, _, he⟩ := h
    cases he
    exact hword
  split at h
  · rename_i hword
    simp only [bind_eq_ok, pure_eq_ok] at h
    obtain ⟨_, _, _, _, _, _, he⟩ := h
    cases he
    exact hword
  split at h
  · rename_i hword
    simp only [bind_eq_ok, pure_eq_ok] at h
    obtain ⟨_, _, _, _, _, _, _, _, _, _, he⟩ := h
    cases he
    exact hword
  split at h
  · rename_i hword
    simp only [bind_eq_ok] at h
    obtain ⟨_, _, h⟩ := h
    split at h
    · cases h
      exact hword
    · simp only [bind_eq_ok, pure_eq_ok] at h
      obtain ⟨_, _, _, _, he⟩ := h
      cases he
      exact hword
  · cases h

theorem readType_simple_of_word {s : SimpleType} (hword : upper (readWord cs).1 = s.word) :
    readType (levels + 1) cs = .ok (.simple s, (readWord cs).2) := by
  simp only [readType, hword, SimpleType.ofWord?_word]

theorem readType_decimal_of_word (hword : upper (readWord cs).1 = "DECIMAL") :
    readType (levels + 1) cs = do
      let cs ← expectChar '(' (readWord cs).2
      let (precision, cs) ← readNumber cs
      let cs ← expectChar ',' cs
      let (scale, cs) ← readNumber cs
      let cs ← expectChar ')' cs
      return (.decimal precision scale, cs) := by
  simp only [readType, hword]
  rfl

theorem readType_array_of_word (hword : upper (readWord cs).1 = "ARRAY") :
    readType (levels + 1) cs = do
      let cs ← expectChar '<' (readWord cs).2
      let (element, cs) ← readType levels cs
      let cs ← expectChar '>' cs
      return (.array element, cs) := by
  simp only [readType, hword]
  rfl

theorem readType_map_of_word (hword : upper (readWord cs).1 = "MAP") :
    readType (levels + 1) cs = do
      let cs ← expectChar '<' (readWord cs).2
      let (key, cs) ← readType levels cs
      let cs ← expectChar ',' cs
      let (value, cs) ← readType levels cs
      let cs ← expectChar '>' cs
      return (.map key value, cs) := by
  simp only [readType, hword]
  rfl

theorem readType_struct_of_word (hword : upper (readWord cs).1 = "STRUCT") :
    readType (levels + 1) cs = do
      let cs ← expectChar '<' (readWord cs).2
      match tryChar '>' cs with
      | (true, cs) => return (.struct [], cs)
      | (false, cs) =>
        let (fields, cs) ← commaSeparated (readField levels) cs.length cs
        let cs ← expectChar '>' cs
        return (.struct fields, cs) := by
  simp only [readType, hword]
  rfl

/-- A text that starts with a name does not start with a symbol. -/
theorem not_leads_symbol_of_name {name : String} {c : Char}
    (h : (SchemaToken.name name).Leads cs rest) (hc : c ∈ SchemaToken.punctuation)
    (tail : List Char) : ¬ (SchemaToken.symbol c).Leads cs tail := by
  obtain ⟨_, rfl, _, hcs⟩ := h
  rw [leads_symbol_iff hc, hcs]
  intro heq
  obtain rfl : '`' = c := (List.cons.inj heq).1
  exact absurd hc (by decide)

/-- A struct is read from its first field on exactly if its fields and a closing bracket come
next. -/
theorem readStructBody_eq_ok_iff {fields : List (String × SqlType)}
    (hfield : Recognizes (readField levels) (fun f => .name f.1 :: f.2.tokens)
      (fun f => f.2.depth ≤ levels)) :
    (match tryChar '>' cs with
      | (true, cs) => return (SqlType.struct [], cs)
      | (false, cs) => do
        let (fields, cs) ← commaSeparated (readField levels) cs.length cs
        let cs ← expectChar '>' cs
        return (SqlType.struct fields, cs)) = Except.ok (SqlType.struct fields, rest) ↔
      (∀ f ∈ fields, f.2.depth ≤ levels) ∧
        Leads (commaTokens (SqlType.fieldTokens fields) ++ [.symbol '>']) cs rest := by
  have hclose : '>' ∈ SchemaToken.punctuation := by decide
  rw [SqlType.fieldTokens_eq]
  constructor
  · intro h
    split at h
    · rename_i after htry
      cases h
      exact ⟨nofun, rest, (tryChar_eq_true_iff hclose).1 htry, rfl⟩
    · rename_i after htry
      obtain ⟨_, rfl⟩ := (tryChar_eq_false_iff hclose).1 htry
      simp only [bind_eq_ok, Prod.exists, pure_eq_ok, expectChar_eq_ok_iff hclose] at h
      obtain ⟨fs, mid, hfs, after, hafter, he⟩ := h
      cases he
      obtain ⟨hne, hfits, tail, hleads, hskip⟩ := hfield.commaSeparated_sound hfs
      obtain ⟨f, fs, rfl⟩ := List.exists_cons_of_ne_nil hne
      refine ⟨hfits, leads_append.2 ⟨tail, ?_, rest, hafter.congr hskip, rfl⟩⟩
      obtain ⟨ts, hts⟩ := exists_commaTokens_cons (.name f.1 :: f.2.tokens)
        (fs.map fun f => .name f.1 :: f.2.tokens)
      rw [List.map_cons, hts] at hleads ⊢
      exact Leads.congr hleads (skipBlank_skipBlank cs)
  · rintro ⟨hfits, hleads⟩
    obtain ⟨tail, hfields, _, hafter, rfl⟩ := leads_append.1 hleads
    cases fields with
    | nil =>
      obtain rfl : cs = tail := hfields
      rw [(tryChar_eq_true_iff hclose).2 hafter]
      rfl
    | cons f fs =>
      -- The first token is a name, so the struct is not empty.
      obtain ⟨ts, hts⟩ := exists_commaTokens_cons (.name f.1 :: f.2.tokens)
        (fs.map fun f => .name f.1 :: f.2.tokens)
      rw [List.map_cons, hts] at hfields
      have htry : tryChar '>' cs = (false, skipBlank cs) :=
        (tryChar_eq_false_iff hclose).2
          ⟨not_leads_symbol_of_name hfields.choose_spec.1 hclose, rfl⟩
      have hread : commaSeparated (readField levels) (skipBlank cs).length (skipBlank cs) =
          .ok (f :: fs, skipBlank tail) := by
        apply hfield.commaSeparated_complete (Nat.le_refl _) (fun _ _ => List.cons_ne_nil _ _)
          (List.cons_ne_nil f fs) hfits
        · rw [List.map_cons, hts]
          exact Leads.congr hfields (skipBlank_skipBlank cs).symm
        · intro c hc
          rw [(leads_symbol_iff hclose).1 hafter] at hc
          cases hc
          rfl
      have hend := (expectChar_eq_ok_iff hclose).2 (hafter.congr (skipBlank_skipBlank tail).symm)
      simp only [htry, hread, hend, bind, Except.bind]
      rfl

theorem recognizes_readField
    (ih : ∀ {cs rest t}, readType levels cs = .ok (t, rest) ↔
      t.depth ≤ levels ∧ Leads t.tokens cs rest) :
    Recognizes (readField levels) (fun f => .name f.1 :: f.2.tokens)
      (fun f => f.2.depth ≤ levels) := by
  have hiff : ∀ {cs f rest}, readField levels cs = .ok (f, rest) ↔
      f.2.depth ≤ levels ∧ Leads (.name f.1 :: f.2.tokens) cs rest := by
    rintro cs ⟨name, t⟩ rest
    simp only [readField, bind_eq_ok, Prod.exists, readName_eq_ok_iff, ih, pure_eq_ok, leads_cons]
    constructor
    · rintro ⟨_, a, ha, _, b, ⟨hdepth, hb⟩, he⟩
      cases he
      exact ⟨hdepth, a, ha, hb⟩
    · rintro ⟨hdepth, a, ha, hb⟩
      exact ⟨name, a, ha, t, rest, ⟨hdepth, hb⟩, rfl⟩
  exact ⟨hiff.1, fun hfits hleads _ => hiff.2 ⟨hfits, hleads⟩⟩

/-- Given its word, a type is read exactly if its other tokens come next. -/
theorem readType_eq_ok_iff_of_word
    (ih : ∀ {cs rest t}, readType levels cs = .ok (t, rest) ↔
      t.depth ≤ levels ∧ Leads t.tokens cs rest)
    (hword : upper (readWord cs).1 = t.word) :
    readType (levels + 1) cs = .ok (t, rest) ↔
      t.depth ≤ levels + 1 ∧ Leads t.tokens.tail (readWord cs).2 rest := by
  cases t with
  | simple s =>
    rw [readType_simple_of_word hword]
    simp [SqlType.tokens, SqlType.depth]
  | decimal p s =>
    rw [readType_decimal_of_word hword]
    simp (disch := decide) only [bind_eq_ok, expectChar_eq_ok_iff, Prod.exists,
      readNumber_eq_ok_iff, pure_eq_ok, SqlType.tokens, List.tail_cons, leads_cons, leads_nil,
      SqlType.depth]
    constructor
    · rintro ⟨a, ha, _, b, hb, c, hc, _, d, hd, e, he, h⟩
      cases h
      exact ⟨by omega, a, ha, b, hb, c, hc, d, hd, rest, he, rfl⟩
    · rintro ⟨_, a, ha, b, hb, c, hc, d, hd, e, he, rfl⟩
      exact ⟨a, ha, p, b, hb, c, hc, s, d, hd, e, he, rfl⟩
  | array element =>
    rw [readType_array_of_word hword]
    simp (disch := decide) only [bind_eq_ok, expectChar_eq_ok_iff, Prod.exists, ih, pure_eq_ok,
      SqlType.tokens, List.tail_cons, leads_cons, leads_append, leads_nil, SqlType.depth]
    constructor
    · rintro ⟨a, ha, _, b, ⟨hdepth, hb⟩, c, hc, h⟩
      cases h
      exact ⟨by omega, a, ha, b, hb, rest, hc, rfl⟩
    · rintro ⟨hdepth, a, ha, b, hb, c, hc, rfl⟩
      exact ⟨a, ha, element, b, ⟨by omega, hb⟩, c, hc, rfl⟩
  | map key value =>
    rw [readType_map_of_word hword]
    simp (disch := decide) only [bind_eq_ok, expectChar_eq_ok_iff, Prod.exists, ih, pure_eq_ok,
      SqlType.tokens, List.tail_cons, leads_cons, leads_append, leads_nil, SqlType.depth]
    constructor
    · rintro ⟨a, ha, _, b, ⟨hkey, hb⟩, c, hc, _, d, ⟨hvalue, hd⟩, e, he, h⟩
      cases h
      exact ⟨by omega, a, ha, b, hb, c, hc, d, hd, rest, he, rfl⟩
    · rintro ⟨hdepth, a, ha, b, hb, c, hc, d, hd, e, he, rfl⟩
      exact ⟨a, ha, key, b, ⟨by omega, hb⟩, c, hc, value, d, ⟨by omega, hd⟩, e, he, rfl⟩
  | struct fields =>
    rw [readType_struct_of_word hword]
    simp (disch := decide) only [bind_eq_ok, expectChar_eq_ok_iff, SqlType.tokens,
      List.tail_cons, leads_cons, SqlType.depth,
      readStructBody_eq_ok_iff (recognizes_readField ih), Nat.add_le_add_iff_right,
      SqlType.fieldsDepth_le_iff]
    constructor
    · rintro ⟨a, ha, hdepth, h⟩
      exact ⟨hdepth, a, ha, h⟩
    · rintro ⟨hdepth, a, ha, h⟩
      exact ⟨a, ha, hdepth, h⟩

/-- A type is read exactly if it has no more levels than allowed and its tokens come next. -/
theorem readType_eq_ok_iff :
    readType levels cs = .ok (t, rest) ↔ t.depth ≤ levels ∧ Leads t.tokens cs rest := by
  induction levels generalizing cs rest t with
  | zero =>
    have hdepth := t.depth_pos
    simp only [readType, reduceCtorEq, false_iff]
    omega
  | succ levels ih =>
    constructor
    · intro h
      have hword := word_of_readType h
      obtain ⟨hdepth, hbody⟩ := (readType_eq_ok_iff_of_word ih hword).1 h
      rw [t.tokens_eq]
      exact ⟨hdepth, _, (leads_word_iff t.word_ne_empty).2 ⟨hword, rfl⟩, hbody⟩
    · rintro ⟨hdepth, h⟩
      rw [t.tokens_eq] at h
      obtain ⟨mid, hlead, hbody⟩ := h
      obtain ⟨hword, rfl⟩ := (leads_word_iff t.word_ne_empty).1 hlead
      exact (readType_eq_ok_iff_of_word ih hword).2 ⟨hdepth, hbody⟩

end

/-! ## Columns and whole texts -/

/-- A column is read with the word `KEY` after it, if that comes next. -/
theorem recognizes_readColumn :
    Recognizes readColumn Column.tokens (fun c => c.type.depth ≤ maxTypeDepth) := by
  have hne : "KEY" ≠ "" := by decide
  constructor
  · intro cs c rest h
    simp only [readColumn, bind_eq_ok, Prod.exists, readName_eq_ok_iff, readType_eq_ok_iff,
      pure_eq_ok] at h
    obtain ⟨name, a, ha, type, b, ⟨hdepth, hb⟩, he⟩ := h
    cases hkey : tryKeyword "KEY" b with
    | mk isKey after =>
      rw [hkey] at he
      cases he
      refine ⟨hdepth, a, ha, leads_append.2 ⟨b, hb, ?_⟩⟩
      cases isKey with
      | true => exact ⟨after, (tryKeyword_eq_true_iff hne).1 hkey, rfl⟩
      | false => exact ((tryKeyword_eq_false_iff hne).1 hkey).2.symm
  · rintro cs ⟨name, type, isKey⟩ rest hdepth ⟨a, ha, hleads⟩ hnext
    obtain ⟨b, hb, hkey⟩ := leads_append.1 hleads
    have htry : tryKeyword "KEY" b = (isKey, rest) := by
      cases isKey with
      | true =>
        obtain ⟨_, hkey, rfl⟩ := hkey
        exact (tryKeyword_eq_true_iff hne).2 hkey
      | false =>
        obtain rfl : b = rest := hkey
        refine (tryKeyword_eq_false_iff hne).2 ⟨?_, rfl⟩
        intro tail htail
        obtain ⟨c, hc, hword⟩ := htail.head?
        rw [hnext c hc] at hword
        cases hword
    simp only [readColumn, readName_eq_ok_iff.2 ha, readType_eq_ok_iff.2 ⟨hdepth, hb⟩, htry, bind,
      Except.bind]
    rfl

theorem whole_eq_ok_iff {α : Type} {item : List Char → Except Fault (α × List Char)}
    {text : String} {x : α} :
    whole item text = .ok x ↔ ∃ rest, item text.toList = .ok (x, rest) ∧ skipBlank rest = [] := by
  have hend : ∀ rest, expectEnd rest = .ok () ↔ skipBlank rest = [] := by
    intro rest
    unfold expectEnd
    cases skipBlank rest <;> simp
  simp only [whole, mapError_eq_ok, bind_eq_ok, Prod.exists, pure_eq_ok, hend]
  constructor
  · rintro ⟨_, rest, hitem, _, hrest, rfl⟩
    exact ⟨rest, hitem, hrest⟩
  · rintro ⟨rest, hitem, hrest⟩
    exact ⟨x, rest, hitem, (), hrest, rfl⟩

/-- A whole text is read as columns exactly if they have types of no more levels than allowed,
and the text is a spelling of them. -/
theorem readColumns_eq_ok_iff {text : String} {columns : List Column} :
    whole (readColumnsUpTo maxTypeDepth) text = .ok columns ↔
      columns ≠ [] ∧ (∀ c ∈ columns, c.type.depth ≤ maxTypeDepth) ∧
        Spelling (LogicalSchema.columnTokens columns) text.toList := by
  rw [whole_eq_ok_iff, spelling_iff_leads (LogicalSchema.namesFollowed_columnTokens columns)]
  constructor
  · rintro ⟨rest, hread, hrest⟩
    obtain ⟨hne, hfits, tail, hleads, hskip⟩ := recognizes_readColumn.commaSeparated_sound hread
    exact ⟨hne, hfits, tail, hleads, hskip.symm.trans hrest⟩
  · rintro ⟨hne, hfits, tail, hleads, htail⟩
    refine ⟨skipBlank tail, ?_, by rw [skipBlank_skipBlank, htail]⟩
    apply recognizes_readColumn.commaSeparated_complete (Nat.le_refl _) (fun _ _ => nofun) hne hfits
      hleads
    rw [htail]
    exact nofun

end SchemaReader

/-- A text is read as a type exactly if it is a spelling of the type, and the type has no more
than 64 levels. -/
theorem SqlType.parse_eq_ok_iff {text : String} {t : SqlType} :
    SqlType.parse text = .ok t ↔ t.depth ≤ maxTypeDepth ∧ Spelling t.tokens text.toList := by
  rw [SqlType.parse, SchemaReader.whole_eq_ok_iff, spelling_iff_leads t.namesFollowed_tokens]
  simp only [SchemaReader.readType_eq_ok_iff]
  constructor
  · rintro ⟨rest, ⟨hdepth, hleads⟩, hrest⟩
    exact ⟨hdepth, rest, hleads, hrest⟩
  · rintro ⟨hdepth, rest, hleads, hrest⟩
    exact ⟨rest, ⟨hdepth, hleads⟩, hrest⟩

namespace LogicalSchema

/-- A text spells columns that make a schema, with types of no more than 64 levels. -/
structure SpelledBy (columns : List Column) (text : String) : Prop where
  ne_nil : columns ≠ []
  keysFirst : KeysFirst columns
  distinct : (columns.map Column.name).Nodup
  shallow : ∀ c ∈ columns, c.type.depth ≤ 64
  spelling : Spelling (columnTokens columns) text.toList

theorem parse_eq_ok_iff {text : String} {s : LogicalSchema} :
    parse text = .ok s ↔ SpelledBy s.columns text := by
  obtain ⟨_, hkeys, hdistinct⟩ := firstFault_eq_none_iff.1 s.faultless
  simp only [parse_eq, bind_eq_ok, SchemaReader.readColumns_eq_ok_iff, ofColumns_eq_ok_iff]
  constructor
  · rintro ⟨_, ⟨hne, hshallow, hspelling⟩, rfl⟩
    exact ⟨hne, hkeys, hdistinct, hshallow, hspelling⟩
  · intro h
    exact ⟨_, ⟨h.ne_nil, h.shallow, h.spelling⟩, rfl⟩

/-- A text is read as a schema exactly if it spells its columns, and a text that spells the
columns of no schema is refused. -/
theorem parse_iff_spelledBy (text : String) :
    (∀ s, parse text = .ok s ↔ SpelledBy s.columns text) ∧
      ((∃ e, parse text = .error e) ↔ ∀ columns, ¬ SpelledBy columns text) := by
  refine ⟨fun s => parse_eq_ok_iff, ?_⟩
  constructor
  · rintro ⟨e, he⟩ columns h
    let s : LogicalSchema :=
      ⟨columns, firstFault_eq_none_iff.2 ⟨h.ne_nil, h.keysFirst, h.distinct⟩⟩
    have hs : parse text = .ok s := parse_eq_ok_iff.2 h
    rw [he] at hs
    cases hs
  · intro hnone
    cases hread : parse text with
    | error e => exact ⟨e, rfl⟩
    | ok s => exact absurd (parse_eq_ok_iff.1 hread) (hnone s.columns)

example : (parse " `a``b`integer\tKey ,`c`Decimal(010 ,2)").toOption.map (fun s => s.columns) =
    some [⟨"a`b", .simple .integer, true⟩, ⟨"c", .decimal 10 2, false⟩] := by
  decide +kernel

end LogicalSchema

end StandingQuery
