import StandingQuery.Proofs.Schema.Grammar
import StandingQuery.Schema.Cursor

/-!
# Tokens read by byte position

A cursor that stands between two characters divides the text into what was read and what is left,
and a reader that goes on from there does the same as the reader of characters does with what is
left. For each token the two are compared once. The comparison `Reads` also says that the cursor
stays between characters and does not end up before its start. It is closed under sequencing, so
whatever is put together from tokens needs no positions any more.

* `isValid_iff`: the boundaries of a text are the ends of its initial parts.
* `sliceFrom?_eq`, `sliceTo?_eq`: at a boundary there is a slice.
* `Reads.bind`, `Reads.bind_ok`, `Reads.bind_error`: sequencing.
* `reads_tryChar`, `reads_readName` and their like: tokens.
-/

namespace StandingQuery

namespace SchemaReader

theorem utf8Size_append (cs ds : List Char) : utf8Size (cs ++ ds) = utf8Size cs + utf8Size ds := by
  induction cs with
  | nil => simp [utf8Size]
  | cons c cs ih => simp only [List.cons_append, utf8Size, ih, Nat.add_assoc]

theorem utf8ByteSize_eq (text : String) : text.utf8ByteSize = utf8Size text.toList := by
  have hchars : ∀ cs, (String.ofList cs).utf8ByteSize = utf8Size cs := by
    intro cs
    induction cs with
    | nil => rfl
    | cons c cs ih =>
      rw [String.ofList_cons, String.utf8ByteSize_append, String.utf8ByteSize_singleton, ih, utf8Size]
  rw [← hchars, String.ofList_toList]

theorem rawEndPos_ofList (cs : List Char) : (String.ofList cs).rawEndPos = ⟨utf8Size cs⟩ := by
  rw [String.Pos.Raw.ext_iff, String.byteIdx_rawEndPos, utf8ByteSize_eq, String.toList_ofList]

/-- The characters that were left where a fault arose. -/
def Fault.left : Fault → List Char
  | expected _ left => left
  | tooDeep left => left

end SchemaReader

namespace SchemaCursor

open SchemaReader (Fault utf8Size)

variable {α β : Type} {text : String} {done left rest : List Char} {byte depth : Nat}

/-! ## Boundaries -/

theorem eq_append_of_toList (h : text.toList = done ++ left) :
    text = String.ofList done ++ String.ofList left := by
  rw [← String.ofList_append, ← h, String.ofList_toList]

/-- The boundaries of a text are the ends of its initial parts. -/
theorem isValid_iff : String.Pos.Raw.IsValid text ⟨byte⟩ ↔
    ∃ done left, text.toList = done ++ left ∧ byte = utf8Size done := by
  rw [String.Pos.Raw.isValid_iff_exists_append]
  constructor
  · rintro ⟨s, t, rfl, hs⟩
    refine ⟨s.toList, t.toList, String.toList_append, ?_⟩
    rw [← SchemaReader.utf8ByteSize_eq]
    exact congrArg String.Pos.Raw.byteIdx hs
  · rintro ⟨done, left, htext, rfl⟩
    exact ⟨String.ofList done, String.ofList left, eq_append_of_toList htext,
      (SchemaReader.rawEndPos_ofList done).symm⟩

theorem splits_of_toList (hvalid : String.Pos.Raw.IsValid text ⟨byte⟩)
    (h : text.toList = done ++ left) (hbyte : byte = utf8Size done) :
    (String.Pos.mk ⟨byte⟩ hvalid).Splits (String.ofList done) (String.ofList left) := by
  subst hbyte
  exact ⟨eq_append_of_toList h, (SchemaReader.rawEndPos_ofList done).symm⟩

theorem sliceFrom?_eq (h : text.toList = done ++ left) (hbyte : byte = utf8Size done) :
    sliceFrom? text byte = some (String.ofList left) := by
  have hvalid := isValid_iff.2 ⟨done, left, h, hbyte⟩
  rw [sliceFrom?, dif_pos hvalid]
  exact congrArg some ((String.Pos.splits _).eq_right (splits_of_toList hvalid h hbyte))

theorem sliceTo?_eq (h : text.toList = done ++ left) (hbyte : byte = utf8Size done) :
    sliceTo? text byte = some (String.ofList done) := by
  have hvalid := isValid_iff.2 ⟨done, left, h, hbyte⟩
  rw [sliceTo?, dif_pos hvalid]
  exact congrArg some ((String.Pos.splits _).eq_left (splits_of_toList hvalid h hbyte))

/-! ## Cursors -/

/-- The cursor stands at a boundary between characters, and no more types are open than may be. -/
structure Cursor.Inside (text : String) (c : Cursor) : Prop where
  boundary : String.Pos.Raw.IsValid text ⟨c.position⟩
  depth_le : c.depth ≤ maxTypeDepth

/-- The cursor stands before what is left of the text. -/
def Cursor.Before (c : Cursor) (text : String) (left : List Char) : Prop :=
  ∃ done, text.toList = done ++ left ∧ c.position = utf8Size done

namespace Cursor.Before

variable {c : Cursor}

theorem boundary (h : c.Before text left) : String.Pos.Raw.IsValid text ⟨c.position⟩ := by
  obtain ⟨done, htext, hposition⟩ := h
  exact isValid_iff.2 ⟨done, left, htext, hposition⟩

theorem suffix (h : c.Before text left) : left <:+ text.toList := by
  obtain ⟨done, htext, _⟩ := h
  exact ⟨done, htext.symm⟩

theorem position_eq (h : c.Before text left) :
    c.position = utf8Size text.toList - utf8Size left := by
  obtain ⟨done, htext, hposition⟩ := h
  rw [htext, SchemaReader.utf8Size_append]
  omega

end Cursor.Before

/-- A track goes on from another, and all its later cursors are inside of the text. -/
def Track.GoesOn (text : String) (t t' : Track) : Prop :=
  ∃ later, t'.cursors = later ++ t.cursors ∧ ∀ c ∈ later, c.Inside text

namespace Track.GoesOn

variable {t u v : Track}

theorem refl : t.GoesOn text t := ⟨[], rfl, nofun⟩

theorem trans (h : t.GoesOn text u) (h' : u.GoesOn text v) : t.GoesOn text v := by
  obtain ⟨cs, hcs, hinside⟩ := h
  obtain ⟨ds, hds, hinside'⟩ := h'
  refine ⟨ds ++ cs, by rw [hds, hcs, List.append_assoc], ?_⟩
  intro c hc
  rcases List.mem_append.1 hc with hc | hc
  · exact hinside' c hc
  · exact hinside c hc

theorem moveTo {c : Cursor} (h : c.Inside text) : t.GoesOn text (t.moveTo c) :=
  ⟨[c], rfl, List.forall_mem_singleton.2 h⟩

theorem leave (ht : t.now.Inside text) : t.GoesOn text t.leave :=
  .moveTo ⟨ht.boundary, Nat.le_trans (Nat.sub_le _ _) ht.depth_le⟩

theorem cursors_inside (h : t.GoesOn text u) (ht : ∀ c ∈ t.cursors, c.Inside text) :
    ∀ c ∈ u.cursors, c.Inside text := by
  obtain ⟨later, hcursors, hlater⟩ := h
  intro c hc
  rw [hcursors] at hc
  rcases List.mem_append.1 hc with hc | hc
  · exact hlater c hc
  · exact ht c hc

theorem now_inside (h : t.GoesOn text u) (ht : t.now.Inside text) : u.now.Inside text := by
  obtain ⟨_ | ⟨c, later⟩, hcursors, hlater⟩ := h
  · obtain ⟨hnow, _⟩ := List.cons.inj hcursors
    rw [hnow]
    exact ht
  · obtain ⟨hnow, _⟩ := List.cons.inj hcursors
    rw [hnow]
    exact hlater c List.mem_cons_self

end Track.GoesOn

/-! ## Runs and readings -/

/-- A run that started at `t` agrees with a reading of the characters that were left there. It ends
before what the reading leaves, with as many types open as at its start, or it stops at a fault
of the reading. In between it has been inside of the text. -/
inductive Agrees (text : String) (t : Track) :
    Except Fault (α × List Char) → Option (Except Stop α × Track) → Prop
  | read {a : α} {left : List Char} {u : Track} (hon : t.GoesOn text u)
      (hdepth : u.now.depth = t.now.depth) (hle : t.now.position ≤ u.now.position)
      (hleft : u.now.Before text left) : Agrees text t (.ok (a, left)) (some (.ok a, u))
  | fault {fault : Fault} {u : Track} (hon : t.GoesOn text u) (hleft : fault.left <:+ text.toList) :
      Agrees text t (.error fault) (some (.error (.fault (fault.toError text)), u))

theorem Agrees.of_goesOn {t u : Track} {result : Except Fault (α × List Char)}
    {run : Option (Except Stop α × Track)} (h : Agrees text u result run)
    (hon : t.GoesOn text u) (hdepth : u.now.depth = t.now.depth)
    (hle : t.now.position ≤ u.now.position) : Agrees text t result run := by
  cases h with
  | read hon' hdepth' hle' hleft =>
    exact .read (hon.trans hon') (hdepth'.trans hdepth) (Nat.le_trans hle hle') hleft
  | fault hon' hleft => exact .fault (hon.trans hon') hleft

/-- Wherever `left` is left of the text and so many types are open, the run of a reader agrees with
a reading of `left`. -/
def Reads (text : String) (scan : Scan α) (depth : Nat) (left : List Char)
    (result : Except Fault (α × List Char)) : Prop :=
  ∀ t : Track, t.now.depth = depth → depth ≤ maxTypeDepth → t.now.Before text left →
    Agrees text t result (scan.runFrom text t)

theorem reads_pure (a : α) : Reads text (pure a) depth left (.ok (a, left)) := by
  intro t _ _ hleft
  exact .read .refl rfl (Nat.le_refl _) hleft

theorem Reads.bind {x : Scan α} {f : α → Scan β} {result : Except Fault (α × List Char)}
    {k : α × List Char → Except Fault (β × List Char)} (hx : Reads text x depth left result)
    (hf : ∀ a rest, result = .ok (a, rest) → Reads text (f a) depth rest (k (a, rest))) :
    Reads text (x >>= f) depth left (result >>= k) := by
  intro t hdepth hle hleft
  have hagrees := hx t hdepth hle hleft
  rw [runFrom_bind]
  generalize x.runFrom text t = run at hagrees ⊢
  cases hagrees with
  | @read a rest u hon hdepth' hle' hleft' =>
    have hnext := hf a rest rfl u (hdepth'.trans hdepth) hle hleft'
    exact hnext.of_goesOn hon hdepth' hle'
  | fault hon hleft' => exact .fault hon hleft'

theorem Reads.bind_ok {x : Scan α} {f : α → Scan β} {a : α}
    {result : Except Fault (β × List Char)} (hx : Reads text x depth left (.ok (a, rest)))
    (hf : Reads text (f a) depth rest result) : Reads text (x >>= f) depth left result := by
  refine hx.bind (k := fun _ => result) ?_
  intro b tail he
  cases he
  exact hf

theorem Reads.bind_error {x : Scan α} {f : α → Scan β} {fault : Fault}
    (hx : Reads text x depth left (.error fault)) :
    Reads text (x >>= f) depth left (.error fault) := by
  refine hx.bind (k := fun _ => .error fault) ?_
  intro a rest he
  cases he

/-! ## Slices and moves -/

theorem reads_rest :
    Reads text SchemaCursor.rest depth left (.ok (String.ofList left, left)) := by
  rintro t _ _ ⟨done, htext, hposition⟩
  rw [runFrom_rest (sliceFrom?_eq htext hposition)]
  exact .read .refl rfl (Nat.le_refl _) ⟨done, htext, hposition⟩

/-- The cursor goes on by the size of characters that come next. -/
theorem reads_advance {bytes : Nat} (h : left = done ++ rest) (hbytes : bytes = utf8Size done) :
    Reads text (advance bytes) depth left (.ok ((), rest)) := by
  rintro t hdepth hle ⟨before, htext, hposition⟩
  rw [runFrom_advance]
  have hrest : (t.advance bytes).now.Before text rest := by
    refine ⟨before ++ done, by rw [htext, h, List.append_assoc], ?_⟩
    rw [SchemaReader.utf8Size_append, ← hposition, ← hbytes]
    rfl
  have hinside : (t.advance bytes).now.Inside text := by
    refine ⟨hrest.boundary, ?_⟩
    show t.now.depth ≤ maxTypeDepth
    omega
  exact .read (.moveTo hinside) rfl (Nat.le_add_right _ _) hrest

theorem reads_expected (what : Expectation) :
    Reads text (expected what : Scan α) depth left (.error (.expected what left)) := by
  intro t _ _ hleft
  rw [runFrom_expected, hleft.position_eq]
  exact .fault .refl hleft.suffix

/-! ## Tokens -/

theorem reads_skipBlank :
    Reads text skipBlank depth left (.ok ((), SchemaReader.skipBlank left)) := by
  refine reads_rest.bind_ok ?_
  have hsplit : left = left.takeWhile Text.isBlank ++ SchemaReader.skipBlank left :=
    List.takeWhile_append_dropWhile.symm
  apply reads_advance hsplit
  rw [String.toList_ofList]
  have hsize := congrArg utf8Size hsplit
  rw [SchemaReader.utf8Size_append] at hsize
  show utf8Size left - utf8Size (SchemaReader.skipBlank left) = _
  omega

theorem reads_tryChar (c : Char) :
    Reads text (tryChar c) depth left (.ok (SchemaReader.tryChar c left)) := by
  refine reads_skipBlank.bind_ok (reads_rest.bind_ok ?_)
  rw [String.toList_ofList, SchemaReader.tryChar]
  cases SchemaReader.skipBlank left with
  | nil => exact reads_pure false
  | cons d rest =>
    by_cases hd : d = c
    · have hhead : (d :: rest).head? = some c := congrArg some hd
      rw [if_pos hhead]
      simp only [if_pos hd]
      refine (reads_advance (List.singleton_append (x := d)).symm ?_).bind_ok (reads_pure true)
      rw [hd]
      rfl
    · have hhead : ¬ (d :: rest).head? = some c := fun h => hd (Option.some.inj h)
      rw [if_neg hhead]
      simp only [if_neg hd]
      exact reads_pure false

theorem reads_expectChar (c : Char) : Reads text (expectChar c) depth left
    ((SchemaReader.expectChar c left).map fun rest => ((), rest)) := by
  have htry : Reads text (tryChar c) depth left _ := reads_tryChar c
  rw [SchemaReader.expectChar]
  generalize SchemaReader.tryChar c left = found at htry ⊢
  obtain ⟨_ | _, rest⟩ := found
  · exact htry.bind_ok (reads_expected (.symbol c))
  · exact htry.bind_ok (reads_pure ())

theorem Reads.expectChar_bind {c : Char} {f : Unit → Scan β}
    {k : List Char → Except Fault (β × List Char)}
    (h : ∀ rest, SchemaReader.expectChar c left = .ok rest → Reads text (f ()) depth rest (k rest)) :
    Reads text (expectChar c >>= f) depth left (SchemaReader.expectChar c left >>= k) := by
  have hsymbol : Reads text (expectChar c) depth left _ := reads_expectChar c
  cases hc : SchemaReader.expectChar c left with
  | error fault =>
    rw [hc] at hsymbol
    exact hsymbol.bind_error
  | ok rest =>
    rw [hc] at hsymbol
    exact hsymbol.bind_ok (h rest hc)

/-- A word goes up to the first character that belongs to no word, or to the end. -/
theorem findByte?_eq (p : Char → Bool) (cs : List Char) :
    (findByte? (fun c => !p c) cs).getD (utf8Size cs) = utf8Size (cs.takeWhile p) := by
  induction cs with
  | nil => rfl
  | cons c cs ih =>
    by_cases hc : p c = true
    · rw [findByte?, List.takeWhile_cons_of_pos hc, utf8Size, utf8Size, ← ih]
      cases findByte? (fun c => !p c) cs <;> simp [hc]
    · simp [findByte?, hc, utf8Size]

theorem reads_readWord : Reads text readWord depth left
    (.ok ((SchemaReader.readWord left).1, (SchemaReader.readWord left).2)) := by
  refine reads_skipBlank.bind_ok (reads_rest.bind_ok ?_)
  rw [SchemaReader.readWord, String.toList_ofList, findByte?_eq]
  generalize SchemaReader.skipBlank left = cs
  have hsplit : cs = cs.takeWhile SchemaReader.isWordChar ++ cs.dropWhile SchemaReader.isWordChar :=
    List.takeWhile_append_dropWhile.symm
  refine (reads_advance hsplit rfl).bind_ok ?_
  have hslice := sliceTo?_eq (String.toList_ofList.trans hsplit) rfl
  rw [hslice]
  dsimp only
  rw [String.toList_ofList]
  exact reads_pure _

/-- Where no keyword comes next, the position is that of the start again, however far the word that
was read instead went. -/
theorem reads_tryKeyword (keyword : String) : Reads text (tryKeyword keyword) depth left
    (.ok (SchemaReader.tryKeyword keyword left)) := by
  intro t hdepth hle hleft
  have hword := reads_readWord t hdepth hle hleft
  rw [SchemaReader.tryKeyword]
  generalize SchemaReader.readWord left = found at hword ⊢
  obtain ⟨word, rest⟩ := found
  rw [tryKeyword, runFrom_bind, runFrom_get]
  dsimp only
  rw [runFrom_bind]
  generalize readWord.runFrom text t = run at hword ⊢
  cases hword with
  | @read _ _ u hon hdepth' hle' hleft' =>
    dsimp only
    by_cases hkeyword : SchemaReader.upper word = keyword
    · rw [if_pos hkeyword, if_pos hkeyword]
      exact .read hon hdepth' hle' hleft'
    · rw [if_neg hkeyword, if_neg hkeyword]
      have hback : (u.moveBack t.now.position).now.Before text left := hleft
      have hinside : (u.moveBack t.now.position).now.Inside text := by
        refine ⟨hback.boundary, ?_⟩
        show u.now.depth ≤ maxTypeDepth
        omega
      exact .read (hon.trans (.moveTo hinside)) hdepth' (Nat.le_refl _) hback

theorem reads_readNumber : Reads text readNumber depth left (SchemaReader.readNumber left) := by
  refine reads_readWord.bind_ok ?_
  rw [SchemaReader.readNumber]
  generalize SchemaReader.readWord left = found
  obtain ⟨word, rest⟩ := found
  dsimp only
  cases Text.Numeral.unsigned Text.max8 word with
  | ok n => exact reads_pure _
  | error _ => exact reads_expected .number

/-- The back-quote that ends a name is found at the byte after the name, as the name is written. -/
theorem closingQuote_charBytes (byte : Nat) (cs : List Char) :
    closingQuote (charBytes byte cs) = (SchemaReader.closeName cs).map fun found =>
      (found.1, byte + utf8Size (found.1.flatMap renderNameChar)) := by
  fun_induction SchemaReader.closeName cs generalizing byte with
  | case1 => rfl
  | case2 cs ih =>
    have hquotes : closingQuote (charBytes byte ('`' :: '`' :: cs)) =
        (closingQuote (charBytes (byte + 1 + 1) cs)).map (Prod.map ('`' :: ·) id) := rfl
    rw [hquotes, ih, Option.map_map, Option.map_map]
    congr 1
    funext found
    have hsize : utf8Size (('`' :: found.1).flatMap renderNameChar) =
        1 + (1 + utf8Size (found.1.flatMap renderNameChar)) := rfl
    simp only [Function.comp_apply, Prod.map, id, Prod.mk.injEq, true_and]
    omega
  | case3 cs hnot =>
    cases cs with
    | nil => rfl
    | cons d ds =>
      have hd : d ≠ '`' := fun hd => hnot ds (hd ▸ rfl)
      simp [charBytes, closingQuote, hd, utf8Size]
  | case4 c cs hnot hquote ih =>
    have hc : c ≠ '`' := fun hc => hquote hc
    have hchar : closingQuote (charBytes byte (c :: cs)) =
        (closingQuote (charBytes (byte + c.utf8Size) cs)).map (Prod.map (c :: ·) id) := by
      simp [charBytes, closingQuote, hc]
    rw [hchar, ih, Option.map_map, Option.map_map]
    congr 1
    funext found
    have hsize : utf8Size ((c :: found.1).flatMap renderNameChar) =
        c.utf8Size + utf8Size (found.1.flatMap renderNameChar) := by
      simp [renderNameChar, hc, utf8Size]
    simp only [Function.comp_apply, Prod.map, id, Prod.mk.injEq, true_and]
    omega

theorem reads_readName : Reads text readName depth left (SchemaReader.readName left) := by
  have hopen : Reads text (expectChar '`') depth left _ := reads_expectChar '`'
  rw [SchemaReader.readName]
  cases hc : SchemaReader.expectChar '`' left with
  | error fault =>
    rw [hc] at hopen
    exact hopen.bind_error
  | ok cs =>
    rw [hc] at hopen
    refine hopen.bind_ok (reads_rest.bind_ok ?_)
    dsimp only
    rw [String.toList_ofList, closingQuote_charBytes]
    cases hclose : SchemaReader.closeName cs with
    | none => exact reads_expected .closingQuote
    | some found =>
      obtain ⟨name, rest⟩ := found
      obtain ⟨hcs, _⟩ := SchemaReader.closeName_eq_some_iff.1 hclose
      have hsplit : cs = (name.flatMap renderNameChar ++ ['`']) ++ rest := by
        rw [hcs, List.append_assoc]
        rfl
      refine (reads_advance hsplit ?_).bind_ok (reads_pure _)
      rw [SchemaReader.utf8Size_append, Nat.zero_add]
      rfl

end SchemaCursor

end StandingQuery
