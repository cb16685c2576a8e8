import Mathlib.Data.List.TakeWhile
import StandingQuery.Proofs.Schema.PrintedSchemas

/-!
# Spellings of schemas

A schema stands for a list of tokens: names, words, numbers and punctuation. Its text may be
spelled in many ways: white space may stand anywhere between tokens, and has to stand between
two words; words may be in any case, and numbers may have leading zeros. A reader sees a text
from its front instead, and takes each word and each name to be as long as can be. Both views
allow the same texts, since in the tokens of a schema no name comes right after a name.

* `Spelling`: the texts that a list of tokens can be written as.
* `Leads`: a text that starts with some tokens, as a reader sees it.
* `spelling_iff_leads`: the two agree.
* `SqlType.tokens`, `LogicalSchema.columnTokens`: the tokens of types and of columns.
-/

namespace StandingQuery

open SchemaReader (isWordChar skipBlank upper)

/-! ## Tokens -/

/-- A part of the text of a schema that cannot be divided. -/
inductive SchemaToken
  | name (text : String)
  /-- The name of a simple type, or a keyword, in upper case. -/
  | word (text : String)
  | number (n : UInt8)
  | symbol (c : Char)
  deriving DecidableEq, Repr

namespace SchemaToken

def punctuation : List Char := ['(', ')', '<', '>', ',']

def isName : SchemaToken → Bool
  | name _ => true
  | _ => false

/-- Whether a token is written with the characters of words. -/
def isWord : SchemaToken → Bool
  | word _ | number _ => true
  | _ => false

/-- The ways to write a token: a name between back-quotes, a word in any case, and a number
with any number of leading zeros. -/
def Spelled (cs : List Char) : SchemaToken → Prop
  | name text => cs = renderName text
  | word text => cs ≠ [] ∧ (∀ c ∈ cs, isWordChar c = true) ∧ upper cs = text
  | number n => cs ≠ [] ∧ (∀ c ∈ cs, c.isDigit = true) ∧ Nat.ofDigitChars 10 cs 0 = n.toNat
  | symbol c => c ∈ punctuation ∧ cs = [c]

end SchemaToken

/-- The texts that a list of tokens can be written as: white space may stand before, between and
after tokens, and has to stand between two words. -/
inductive Spelling : List SchemaToken → List Char → Prop
  | blank {cs : List Char} (hcs : ∀ c ∈ cs, Text.isBlank c = true) : Spelling [] cs
  | token {t : SchemaToken} {ts : List SchemaToken} {gap lexeme rest : List Char}
      (hgap : ∀ c ∈ gap, Text.isBlank c = true) (hlexeme : t.Spelled lexeme)
      (hapart : t.isWord = true → (∃ u ∈ ts.head?, u.isWord = true) →
        ∃ c ∈ rest.head?, Text.isBlank c = true)
      (hrest : Spelling ts rest) : Spelling (t :: ts) (gap ++ lexeme ++ rest)

/-! ## What a reader sees -/

theorem isWordChar_of_isDigit {c : Char} (h : c.isDigit = true) : isWordChar c = true := by
  simp [isWordChar, Char.isAlphanum, h]

theorem isWordChar_of_isBlank {c : Char} (h : Text.isBlank c = true) : isWordChar c = false := by
  cases hword : isWordChar c with
  | false => rfl
  | true =>
    rw [SchemaReader.isBlank_of_isWordChar hword] at h
    cases h

namespace SchemaToken

variable {t : SchemaToken} {cs rest : List Char}

theorem not_wordChar_of_mem_punctuation {c : Char} (h : c ∈ punctuation) :
    isWordChar c = false ∧ Text.isBlank c = false ∧ c ≠ '`' := by
  simp only [punctuation, List.mem_cons, List.not_mem_nil, or_false] at h
  rcases h with rfl | rfl | rfl | rfl | rfl <;> decide

/-- The first character tells what kind of token it belongs to. -/
theorem Spelled.exists_cons (h : t.Spelled cs) :
    ∃ c ds, cs = c :: ds ∧ Text.isBlank c = false ∧ isWordChar c = t.isWord ∧
      (c = '`' → t.isName = true) := by
  cases t with
  | name text =>
    obtain rfl : cs = renderName text := h
    exact ⟨'`', _, rfl, by decide, by rfl, fun _ => rfl⟩
  | word text =>
    obtain ⟨hne, hcs, _⟩ := h
    obtain ⟨c, ds, rfl⟩ := List.exists_cons_of_ne_nil hne
    have hc := hcs c List.mem_cons_self
    refine ⟨c, ds, rfl, SchemaReader.isBlank_of_isWordChar hc, hc, ?_⟩
    rintro rfl
    cases hc
  | number n =>
    obtain ⟨hne, hcs, _⟩ := h
    obtain ⟨c, ds, rfl⟩ := List.exists_cons_of_ne_nil hne
    have hc := isWordChar_of_isDigit (hcs c List.mem_cons_self)
    refine ⟨c, ds, rfl, SchemaReader.isBlank_of_isWordChar hc, hc, ?_⟩
    rintro rfl
    cases hc
  | symbol c =>
    obtain ⟨hmem, rfl⟩ := h
    obtain ⟨hword, hblank, hquote⟩ := not_wordChar_of_mem_punctuation hmem
    exact ⟨c, [], rfl, hblank, hword, fun h => absurd h hquote⟩

/-- What follows cannot be taken for more of the token. -/
def EndsBefore (t : SchemaToken) (rest : List Char) : Prop :=
  ∀ c ∈ rest.head?, (t.isWord = true → isWordChar c = false) ∧ (t.isName = true → c ≠ '`')

/-- After white space, a text starts with a token, and `rest` is left. -/
def Leads (t : SchemaToken) (cs rest : List Char) : Prop :=
  ∃ lexeme, t.Spelled lexeme ∧ t.EndsBefore rest ∧ skipBlank cs = lexeme ++ rest

end SchemaToken

/-- A text starts with some tokens, and `rest` is left. -/
def Leads : List SchemaToken → List Char → List Char → Prop
  | [], cs, rest => cs = rest
  | t :: ts, cs, rest => ∃ mid, t.Leads cs mid ∧ Leads ts mid rest

section

variable {t : SchemaToken} {ts us : List SchemaToken} {cs ds gap mid rest : List Char}

@[simp]
theorem leads_nil : Leads [] cs rest ↔ cs = rest := Iff.rfl

@[simp]
theorem leads_cons : Leads (t :: ts) cs rest ↔ ∃ mid, t.Leads cs mid ∧ Leads ts mid rest := Iff.rfl

theorem leads_append :
    Leads (ts ++ us) cs rest ↔ ∃ mid, Leads ts cs mid ∧ Leads us mid rest := by
  induction ts generalizing cs with
  | nil => simp
  | cons t ts ih =>
    simp only [List.cons_append, leads_cons, ih]
    constructor
    · rintro ⟨a, ha, b, hb, hrest⟩
      exact ⟨b, ⟨a, ha, hb⟩, hrest⟩
    · rintro ⟨b, ⟨a, ha, hb⟩, hrest⟩
      exact ⟨a, ha, b, hb, hrest⟩

theorem skipBlank_append (hgap : ∀ c ∈ gap, Text.isBlank c = true) (cs : List Char) :
    skipBlank (gap ++ cs) = skipBlank cs :=
  List.dropWhile_append_of_pos hgap

/-- A text is its leading white space and what is left after it. -/
theorem exists_gap (cs : List Char) :
    ∃ gap, (∀ c ∈ gap, Text.isBlank c = true) ∧ cs = gap ++ skipBlank cs :=
  ⟨cs.takeWhile Text.isBlank, fun _ hc => List.mem_takeWhile_imp hc,
    List.takeWhile_append_dropWhile.symm⟩

theorem skipBlank_eq_nil_iff : skipBlank cs = [] ↔ ∀ c ∈ cs, Text.isBlank c = true :=
  List.dropWhile_eq_nil_iff

theorem skipBlank_skipBlank (cs : List Char) : skipBlank (skipBlank cs) = skipBlank cs := by
  obtain ⟨gap, hgap, hcs⟩ := exists_gap cs
  calc
    skipBlank (skipBlank cs) = skipBlank (gap ++ skipBlank cs) := (skipBlank_append hgap _).symm
    _ = skipBlank cs := by rw [← hcs]

theorem SchemaToken.Spelled.skipBlank_append {lexeme : List Char} (h : t.Spelled lexeme)
    (rest : List Char) : skipBlank (lexeme ++ rest) = lexeme ++ rest := by
  obtain ⟨c, ds, rfl, hblank, _⟩ := h.exists_cons
  exact SchemaReader.skipBlank_of_head hblank

/-- White space before the first token makes no difference. -/
theorem SchemaToken.Leads.congr (h : t.Leads cs rest) (hskip : skipBlank cs = skipBlank ds) :
    t.Leads ds rest := by
  rwa [Leads, ← hskip]

theorem Leads.congr (h : Leads (t :: ts) cs rest) (hskip : skipBlank cs = skipBlank ds) :
    Leads (t :: ts) ds rest := by
  obtain ⟨mid, ht, hts⟩ := h
  exact ⟨mid, ht.congr hskip, hts⟩

/-- The first character tells what kind of token a text starts with. -/
theorem SchemaToken.Leads.head? (h : t.Leads cs rest) :
    ∃ c, (skipBlank cs).head? = some c ∧ isWordChar c = t.isWord := by
  obtain ⟨lexeme, hlexeme, _, hcs⟩ := h
  obtain ⟨c, ds, rfl, _, hword, _⟩ := hlexeme.exists_cons
  exact ⟨c, by rw [hcs]; rfl, hword⟩

theorem length_skipBlank_le (cs : List Char) : (skipBlank cs).length ≤ cs.length :=
  (SchemaReader.skipBlank_suffix cs).length_le

/-- Each token takes at least one character. -/
theorem Leads.length_le (h : Leads ts cs rest) : ts.length + rest.length ≤ cs.length := by
  induction ts generalizing cs with
  | nil =>
    obtain rfl : cs = rest := h
    simp
  | cons t ts ih =>
    obtain ⟨mid, ⟨lexeme, hlexeme, _, hcs⟩, hts⟩ := h
    obtain ⟨c, ds, rfl, _⟩ := hlexeme.exists_cons
    have hmid := ih hts
    have hle := length_skipBlank_le cs
    rw [hcs] at hle
    simp only [List.length_append, List.length_cons] at hle ⊢
    omega

/-! ## The two views of a text -/

/-- Every name is followed by a token that is no name. -/
def NamesFollowed : List SchemaToken → Prop
  | [] => True
  | t :: ts => (t.isName = true → ∃ u ∈ ts.head?, u.isName = false) ∧ NamesFollowed ts

theorem NamesFollowed.append (hts : NamesFollowed ts) (hus : NamesFollowed us) :
    NamesFollowed (ts ++ us) := by
  induction ts with
  | nil => exact hus
  | cons t ts ih =>
    refine ⟨?_, ih hts.2⟩
    intro ht
    obtain ⟨u, hu, hname⟩ := hts.1 ht
    exact ⟨u, by simp [List.head?_append, Option.mem_def.1 hu], hname⟩

/-- Where a spelling starts with a character that is not blank, that is the start of its first
token. -/
theorem Spelling.head? (h : Spelling ts cs) {c : Char} (hc : c ∈ cs.head?)
    (hblank : Text.isBlank c = false) :
    ∃ u ∈ ts.head?, isWordChar c = u.isWord ∧ (c = '`' → u.isName = true) := by
  cases h with
  | blank hcs =>
    rw [hcs c (List.mem_of_mem_head? hc)] at hblank
    cases hblank
  | @token u us gap lexeme rest hgap hlexeme _ _ =>
    obtain ⟨d, ds, rfl, _, hword, hname⟩ := hlexeme.exists_cons
    cases gap with
    | nil =>
      cases hc
      exact ⟨u, rfl, hword, hname⟩
    | cons b gap =>
      obtain rfl : b = c := Option.some.inj hc
      rw [hgap b List.mem_cons_self] at hblank
      cases hblank

/-- In a spelling, what follows a token cannot be taken for more of it. -/
theorem Spelling.endsBefore (h : Spelling ts rest)
    (hapart : t.isWord = true → (∃ u ∈ ts.head?, u.isWord = true) →
      ∃ c ∈ rest.head?, Text.isBlank c = true)
    (hname : t.isName = true → ∃ u ∈ ts.head?, u.isName = false) : t.EndsBefore rest := by
  intro c hc
  cases hblank : Text.isBlank c with
  | true =>
    refine ⟨fun _ => isWordChar_of_isBlank hblank, ?_⟩
    rintro _ rfl
    cases hblank
  | false =>
    obtain ⟨u, hu, hword, hquote⟩ := h.head? hc hblank
    constructor
    · intro ht
      rw [hword]
      cases huword : u.isWord with
      | false => rfl
      | true =>
        obtain ⟨d, hd, hdblank⟩ := hapart ht ⟨u, hu, huword⟩
        cases Option.mem_unique hc hd
        rw [hdblank] at hblank
        cases hblank
    · rintro ht rfl
      obtain ⟨v, hv, hvname⟩ := hname ht
      cases Option.mem_unique hu hv
      rw [hquote rfl] at hvname
      cases hvname

/-- A text that a reader takes for some tokens and white space is a spelling of them, and the
other way round. -/
theorem spelling_iff_leads (hts : NamesFollowed ts) :
    Spelling ts cs ↔ ∃ tail, Leads ts cs tail ∧ skipBlank tail = [] := by
  constructor
  · intro h
    induction h with
    | blank hcs => exact ⟨_, rfl, skipBlank_eq_nil_iff.2 hcs⟩
    | @token t ts gap lexeme rest hgap hlexeme hapart hrest ih =>
      obtain ⟨tail, htail, hend⟩ := ih hts.2
      refine ⟨tail, ⟨rest, ⟨lexeme, hlexeme, hrest.endsBefore hapart hts.1, ?_⟩, htail⟩, hend⟩
      rw [List.append_assoc, skipBlank_append hgap, hlexeme.skipBlank_append]
  · rintro ⟨tail, h, hend⟩
    induction ts generalizing cs with
    | nil =>
      obtain rfl : cs = tail := h
      exact .blank (skipBlank_eq_nil_iff.1 hend)
    | cons t ts ih =>
      obtain ⟨mid, ⟨lexeme, hlexeme, hends, hcs⟩, hrest⟩ := h
      obtain ⟨gap, hgap, hgapcs⟩ := exists_gap cs
      rw [hgapcs, hcs, ← List.append_assoc]
      refine .token hgap hlexeme ?_ (ih hts.2 hrest)
      rintro ht ⟨u, hu, huword⟩
      -- The reader took the whole word, so the next word cannot come at once.
      obtain ⟨us, rfl⟩ : ∃ us, ts = u :: us := by
        cases ts with
        | nil => cases hu
        | cons v vs =>
          cases hu
          exact ⟨vs, rfl⟩
      obtain ⟨c, hc, hcword⟩ := hrest.choose_spec.1.head?
      obtain ⟨gap', hgap', hmid⟩ := exists_gap mid
      cases gap' with
      | cons b gap' => exact ⟨b, by rw [hmid]; rfl, hgap' b List.mem_cons_self⟩
      | nil =>
        rw [List.nil_append] at hmid
        rw [← hmid] at hc
        have hfalse := (hends c hc).1 ht
        rw [hcword, huword] at hfalse
        cases hfalse

end

/-! ## The tokens of schemas -/

/-- Lists of tokens with a comma between neighbours. -/
def commaTokens (items : List (List SchemaToken)) : List SchemaToken :=
  [.symbol ','].intercalate items

theorem commaTokens_cons_cons (x y : List SchemaToken) (xs : List (List SchemaToken)) :
    commaTokens (x :: y :: xs) = x ++ .symbol ',' :: commaTokens (y :: xs) := by
  simp [commaTokens, List.intercalate_cons_cons]

/-- A list starts with the tokens of its first item. -/
theorem exists_commaTokens_cons (x : List SchemaToken) (xs : List (List SchemaToken)) :
    ∃ ts, commaTokens (x :: xs) = x ++ ts := by
  cases xs with
  | nil => exact ⟨[], by simp [commaTokens]⟩
  | cons y ys => exact ⟨_, commaTokens_cons_cons x y ys⟩

theorem namesFollowed_commaTokens {items : List (List SchemaToken)}
    (h : ∀ x ∈ items, NamesFollowed x) : NamesFollowed (commaTokens items) := by
  induction items with
  | nil => trivial
  | cons x items ih =>
    obtain ⟨hx, hitems⟩ := List.forall_mem_cons.1 h
    cases items with
    | nil => simpa [commaTokens] using hx
    | cons y ys =>
      rw [commaTokens_cons_cons]
      exact hx.append ⟨nofun, ih hitems⟩

namespace SqlType

/-- The word that the text of a type starts with. -/
def word : SqlType → String
  | simple t => t.word
  | decimal _ _ => "DECIMAL"
  | array _ => "ARRAY"
  | map _ _ => "MAP"
  | struct _ => "STRUCT"

mutual

/-- The tokens of a type. -/
def tokens : SqlType → List SchemaToken
  | simple t => [.word t.word]
  | decimal p s =>
    [.word "DECIMAL", .symbol '(', .number p, .symbol ',', .number s, .symbol ')']
  | array element => .word "ARRAY" :: .symbol '<' :: (element.tokens ++ [.symbol '>'])
  | map key value =>
    .word "MAP" :: .symbol '<' ::
      (key.tokens ++ .symbol ',' :: (value.tokens ++ [.symbol '>']))
  | struct fields =>
    .word "STRUCT" :: .symbol '<' :: (commaTokens (fieldTokens fields) ++ [.symbol '>'])

/-- The tokens of each field of a struct: its name and its type. -/
def fieldTokens : List (String × SqlType) → List (List SchemaToken)
  | [] => []
  | (name, t) :: fields => (.name name :: t.tokens) :: fieldTokens fields

end

theorem tokens_eq (t : SqlType) : t.tokens = .word t.word :: t.tokens.tail := by
  cases t <;> rfl

theorem word_ne_empty (t : SqlType) : t.word ≠ "" := by
  cases t with
  | simple t => cases t <;> simp [word, SimpleType.word]
  | _ => simp [word]

/-- A name before a type is followed by the word of the type. -/
theorem namesFollowed_name (name : String) {t : SqlType} (h : NamesFollowed t.tokens) :
    NamesFollowed (.name name :: t.tokens) := by
  refine ⟨fun _ => ⟨.word t.word, ?_, rfl⟩, h⟩
  rw [t.tokens_eq]
  rfl

theorem fieldTokens_eq (fields : List (String × SqlType)) :
    fieldTokens fields = fields.map fun f => .name f.1 :: f.2.tokens := by
  induction fields with
  | nil => rfl
  | cons f fields ih => rw [fieldTokens, ih, List.map_cons]

/-- In a type, each name is that of a field and is followed by the word of its type. -/
theorem namesFollowed_tokens (t : SqlType) : NamesFollowed t.tokens := by
  induction t using SqlType.induct with
  | simple t => simp [tokens, NamesFollowed, SchemaToken.isName]
  | decimal p s => simp [tokens, NamesFollowed, SchemaToken.isName]
  | array t ih => exact ⟨nofun, nofun, ih.append ⟨nofun, trivial⟩⟩
  | map k v ihk ihv => exact ⟨nofun, nofun, ihk.append ⟨nofun, ihv.append ⟨nofun, trivial⟩⟩⟩
  | struct fields ih =>
    refine ⟨nofun, nofun, NamesFollowed.append (namesFollowed_commaTokens ?_) ⟨nofun, trivial⟩⟩
    rw [fieldTokens_eq]
    intro x hx
    obtain ⟨f, hf, rfl⟩ := List.mem_map.1 hx
    exact namesFollowed_name f.1 (ih f hf)

end SqlType

/-- The tokens of a column: its name, its type and, for a key column, the word `KEY`. -/
def Column.tokens (c : Column) : List SchemaToken :=
  .name c.name :: (c.type.tokens ++ if c.isKey then [.word "KEY"] else [])

/-- The tokens of a schema with these columns. -/
def LogicalSchema.columnTokens (columns : List Column) : List SchemaToken :=
  commaTokens (columns.map Column.tokens)

theorem LogicalSchema.namesFollowed_columnTokens (columns : List Column) :
    NamesFollowed (columnTokens columns) := by
  apply namesFollowed_commaTokens
  intro x hx
  obtain ⟨c, _, rfl⟩ := List.mem_map.1 hx
  have htype := SqlType.namesFollowed_name c.name c.type.namesFollowed_tokens
  rw [Column.tokens, ← List.cons_append]
  refine htype.append ?_
  split
  · exact ⟨nofun, trivial⟩
  · trivial

end StandingQuery
