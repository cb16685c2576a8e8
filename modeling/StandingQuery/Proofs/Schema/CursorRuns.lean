import StandingQuery.Proofs.Schema.CursorTokens

/-!
# Runs along the text of a schema

Types, columns and whole texts are put together from tokens, so a run that reads by byte position
comes to the result that the reader of characters comes to, for every text. It comes to an end, it
never needs a slice that the text does not have, and its cursors stay inside of the text.

* `reads_commaSeparated`: lists, which are shorter than the text.
* `reads_readType`: types. The levels that a type may still have and the types that are open add up
  to the limit.
* `staysInside_whole`: whole texts.
* `runs_stay_inside`: what holds of each run.
-/

namespace StandingQuery

/-! ## Offsets of errors -/

/-- The offset in an error about a place in a text. -/
def SchemaError.offset? : SchemaError → Option Nat
  | expected _ offset _ | tooDeep offset => some offset
  | _ => none

/-- Errors about columns are about no place in a text. -/
theorem LogicalSchema.offset?_of_ofColumns {columns : List Column} {e : SchemaError}
    (h : ofColumns columns = .error e) : e.offset? = none := by
  have hafter : ∀ {columns seen afterValue}, faultAfter seen afterValue columns = some e →
      e.offset? = none := by
    intro columns
    induction columns with
    | nil => nofun
    | cons c columns ih =>
      intro seen afterValue he
      unfold faultAfter at he
      split at he
      · cases he
        rfl
      split at he
      · cases he
        rfl
      · exact ih he
  unfold ofColumns at h
  split at h
  · rename_i fault hfault
    cases h
    unfold firstFault at hfault
    split at hfault
    · cases hfault
      rfl
    · exact hafter hfault
  · cases h

namespace SchemaReader

/-- What an item reader leaves is shorter than what it was given. -/
theorem Recognizes.length_lt {α : Type} {item : List Char → Except Fault (α × List Char)}
    {tokens : α → List SchemaToken} {fits : α → Prop} (h : Recognizes item tokens fits)
    (hne : ∀ x, tokens x ≠ []) {cs rest : List Char} {x : α} (hread : item cs = .ok (x, rest)) :
    rest.length < cs.length := by
  have hle := (h.sound hread).2.length_le
  have hpos := List.length_pos_iff.2 (hne x)
  omega

end SchemaReader

namespace SchemaCursor

open SchemaReader (Fault utf8Size commaSeparated upper)

variable {α : Type} {text : String} {left : List Char} {depth levels : Nat}

/-! ## Lists -/

/-- A reader that goes on after each comma agrees with the reader of lists. -/
theorem reads_commaSeparated {item : Scan α} {items : Scan (List α)}
    {read : List Char → Except Fault (α × List Char)}
    (hitems : items = do
      let x ← item
      if ← tryChar ',' then
        let xs ← items
        return x :: xs
      else
        return [x])
    (hitem : ∀ left, Reads text item depth left (read left))
    (hshorter : ∀ {left x rest}, read left = .ok (x, rest) → rest.length < left.length)
    {more : Nat} (hmore : left.length ≤ more) :
    Reads text items depth left (commaSeparated read more left) := by
  -- The list has as many items at most as there are characters, so it ends before `more` does.
  induction more generalizing left with
  | zero =>
    rw [hitems, commaSeparated]
    refine (hitem left).bind ?_
    intro x rest hx
    have := hshorter hx
    omega
  | succ more ih =>
    rw [hitems, commaSeparated]
    refine (hitem left).bind ?_
    intro x rest hx
    have hcomma : Reads text (tryChar ',') depth rest _ := reads_tryChar ','
    have hlength := hshorter hx
    have hafter := (SchemaReader.tryChar_suffix ',' rest).length_le
    dsimp only
    generalize SchemaReader.tryChar ',' rest = found at hcomma hafter ⊢
    obtain ⟨_ | _, after⟩ := found
    · exact hcomma.bind_ok (reads_pure [x])
    · have hle : after.length ≤ more := by
        dsimp only at hafter
        omega
      refine hcomma.bind_ok ?_
      exact (ih hle).bind fun xs _ _ => reads_pure (x :: xs)

/-! ## Types -/

section

variable (htype : ∀ left, Reads text readType depth left (SchemaReader.readType levels left))
include htype

theorem reads_readField :
    Reads text readField depth left (SchemaReader.readField levels left) := by
  rw [readField]
  refine reads_readName.bind fun name afterName _ => ?_
  exact (htype afterName).bind fun t _ _ => reads_pure (name, t)

theorem reads_readFields : Reads text readFields depth left
    (commaSeparated (SchemaReader.readField levels) left.length left) := by
  have hfields : SchemaReader.Recognizes (SchemaReader.readField levels) _ _ :=
    SchemaReader.recognizes_readField SchemaReader.readType_eq_ok_iff
  exact reads_commaSeparated readFields.eq_1 (fun _ => reads_readField htype)
    (hfields.length_lt fun _ => nofun) (Nat.le_refl _)

/-- The word that comes first tells what else has to come, by position as in the characters. -/
theorem reads_readTypeBody :
    Reads text readTypeBody depth left (SchemaReader.readType (levels + 1) left) := by
  rw [readTypeBody]
  refine reads_readWord.bind_ok ?_
  dsimp only
  cases hsimple : SimpleType.ofWord? (upper (SchemaReader.readWord left).1) with
  | some s =>
    simp only [SchemaReader.readType, hsimple]
    exact reads_pure _
  | none =>
    by_cases hdecimal : upper (SchemaReader.readWord left).1 = "DECIMAL"
    · rw [if_pos hdecimal, SchemaReader.readType_decimal_of_word hdecimal]
      refine .expectChar_bind fun _ _ => ?_
      refine reads_readNumber.bind fun precision _ _ => ?_
      refine .expectChar_bind fun _ _ => ?_
      refine reads_readNumber.bind fun scale _ _ => ?_
      exact .expectChar_bind fun _ _ => reads_pure (SqlType.decimal precision scale)
    rw [if_neg hdecimal]
    by_cases harray : upper (SchemaReader.readWord left).1 = "ARRAY"
    · rw [if_pos harray, SchemaReader.readType_array_of_word harray]
      refine .expectChar_bind fun _ _ => ?_
      refine (htype _).bind fun element _ _ => ?_
      exact .expectChar_bind fun _ _ => reads_pure (SqlType.array element)
    rw [if_neg harray]
    by_cases hmap : upper (SchemaReader.readWord left).1 = "MAP"
    · rw [if_pos hmap, SchemaReader.readType_map_of_word hmap]
      refine .expectChar_bind fun _ _ => ?_
      refine (htype _).bind fun key _ _ => ?_
      refine .expectChar_bind fun _ _ => ?_
      refine (htype _).bind fun value _ _ => ?_
      exact .expectChar_bind fun _ _ => reads_pure (SqlType.map key value)
    rw [if_neg hmap]
    by_cases hstruct : upper (SchemaReader.readWord left).1 = "STRUCT"
    · rw [if_pos hstruct, SchemaReader.readType_struct_of_word hstruct]
      refine .expectChar_bind fun body _ => ?_
      have hclose : Reads text (tryChar '>') depth body _ := reads_tryChar '>'
      generalize SchemaReader.tryChar '>' body = found at hclose ⊢
      obtain ⟨_ | _, fields⟩ := found
      · refine hclose.bind_ok ?_
        refine (reads_readFields htype).bind fun fs _ _ => ?_
        exact .expectChar_bind fun _ _ => reads_pure (SqlType.struct fs)
      · exact hclose.bind_ok (reads_pure _)
    rw [if_neg hstruct]
    simp only [SchemaReader.readType, hsimple, if_neg hdecimal, if_neg harray, if_neg hmap,
      if_neg hstruct]
    exact reads_expected .sqlType

end

/-- Types that are open take up the levels that a type inside of them may no longer have. -/
theorem reads_readType (hlimit : depth + levels = maxTypeDepth) :
    Reads text readType depth left (SchemaReader.readType levels left) := by
  induction levels generalizing depth left with
  | zero =>
    intro t ht _ hleft
    have hdeep : t.now.depth ≥ maxTypeDepth := by omega
    rw [runFrom_readType, if_pos hdeep, hleft.position_eq]
    exact .fault .refl hleft.suffix
  | succ levels ih =>
    intro t ht hle hleft
    have hdeep : ¬ t.now.depth ≥ maxTypeDepth := by omega
    rw [runFrom_readType, if_neg hdeep]
    have htype : ∀ left, Reads text readType (depth + 1) left (SchemaReader.readType levels left) :=
      fun left => ih (by omega)
    have hbody := reads_readTypeBody htype t.enter (congrArg (· + 1) ht) (by omega) hleft
    have hinside : t.enter.now.Inside text := by
      refine ⟨hleft.boundary, ?_⟩
      show t.now.depth + 1 ≤ maxTypeDepth
      omega
    have henter : t.GoesOn text t.enter := .moveTo hinside
    generalize readTypeBody.runFrom text t.enter = run at hbody ⊢
    generalize SchemaReader.readType (levels + 1) left = result at hbody ⊢
    cases hbody with
    | @read a rest u hon hopen hle' hrest =>
      have hleave : u.GoesOn text u.leave := .leave (hon.now_inside hinside)
      have hclosed : u.leave.now.depth = t.now.depth := by
        show u.now.depth - 1 = t.now.depth
        rw [hopen]
        rfl
      exact .read ((henter.trans hon).trans hleave) hclosed hle' hrest
    | @fault fault u hon hrest =>
      have hleave : u.GoesOn text u.leave := .leave (hon.now_inside hinside)
      exact .fault ((henter.trans hon).trans hleave) hrest

/-! ## Whole texts -/

theorem reads_readColumn : Reads text readColumn 0 left (SchemaReader.readColumn left) := by
  rw [readColumn]
  refine reads_readName.bind fun name afterName _ => ?_
  refine (reads_readType rfl).bind fun type afterType _ => ?_
  have hkey : Reads text (tryKeyword "KEY") 0 afterType _ := reads_tryKeyword "KEY"
  dsimp only
  generalize SchemaReader.tryKeyword "KEY" afterType = found at hkey ⊢
  exact hkey.bind_ok (reads_pure _)

theorem reads_readColumns : Reads text readColumns 0 left
    (commaSeparated SchemaReader.readColumn left.length left) :=
  reads_commaSeparated readColumns.eq_1 (fun _ => reads_readColumn)
    (SchemaReader.recognizes_readColumn.length_lt fun _ => nofun) (Nat.le_refl _)

theorem reads_expectEnd : Reads text expectEnd depth left
    ((SchemaReader.expectEnd left).map fun _ => ((), [])) := by
  refine reads_skipBlank.bind_ok (reads_rest.bind_ok ?_)
  rw [SchemaReader.expectEnd]
  cases SchemaReader.skipBlank left with
  | nil => exact reads_pure ()
  | cons c cs =>
    have hne : ¬ (String.ofList (c :: cs)).isEmpty = true := by simp
    rw [if_neg hne]
    exact reads_expected .schemaEnd

/-- A run along a text comes to a result. All the cursors that it has had are inside of the text,
and so is the place that the result is about, if it is an error about a place. -/
structure StaysInside (text : String) (result : Except SchemaError α)
    (run : Option (Except Stop α × Track)) : Prop where
  ends : ∃ t, run = some (result.mapError .fault, t) ∧ ∀ c ∈ t.cursors, c.Inside text
  offset_boundary : ∀ e offset, result = .error e → e.offset? = some offset →
    String.Pos.Raw.IsValid text ⟨offset⟩

theorem offset_boundary_of_left {fault : Fault} (h : fault.left <:+ text.toList) {offset : Nat}
    (hoffset : (fault.toError text).offset? = some offset) :
    String.Pos.Raw.IsValid text ⟨offset⟩ := by
  obtain ⟨done, htext⟩ := h
  have hsize : utf8Size done + utf8Size fault.left = utf8Size text.toList := by
    rw [← htext, SchemaReader.utf8Size_append]
  have heq : offset = utf8Size text.toList - utf8Size fault.left := by
    cases fault <;> exact (Option.some.inj hoffset).symm
  exact isValid_iff.2 ⟨done, fault.left, htext.symm, by omega⟩

theorem Agrees.staysInside {result : Except Fault (α × List Char)}
    {run : Option (Except Stop α × Track)} (h : Agrees text .start result run) :
    StaysInside text ((result.map Prod.fst).mapError (Fault.toError text)) run := by
  have hstart : ∀ c ∈ Track.start.cursors, c.Inside text :=
    List.forall_mem_singleton.2 ⟨String.Pos.Raw.isValid_zero, Nat.zero_le _⟩
  cases h with
  | @read a rest t hon _ _ _ => exact ⟨⟨t, rfl, hon.cursors_inside hstart⟩, nofun⟩
  | @fault fault t hon hleft =>
    refine ⟨⟨t, rfl, hon.cursors_inside hstart⟩, ?_⟩
    intro e offset he hoffset
    cases he
    exact offset_boundary_of_left hleft hoffset

theorem staysInside_whole {scan : Scan α} {item : List Char → Except Fault (α × List Char)}
    (h : Reads text scan 0 text.toList (item text.toList)) :
    StaysInside text (SchemaReader.whole item text) ((whole scan).runFrom text .start) := by
  have hwhole : Reads text (whole scan) 0 text.toList (item text.toList >>= fun found =>
      (SchemaReader.expectEnd found.2).map fun _ => (found.1, [])) := by
    refine h.bind fun a rest _ => ?_
    have hend : Reads text expectEnd 0 rest _ := reads_expectEnd
    dsimp only
    generalize SchemaReader.expectEnd rest = ended at hend ⊢
    cases ended with
    | error fault => exact hend.bind_error
    | ok _ => exact hend.bind_ok (reads_pure a)
  have hstays := (hwhole .start rfl (Nat.zero_le _) ⟨[], rfl, rfl⟩).staysInside
  rw [SchemaReader.whole]
  generalize item text.toList = result at hstays ⊢
  cases result with
  | error fault => exact hstays
  | ok found =>
    obtain ⟨a, rest⟩ := found
    simp only [bind, Except.bind] at hstays ⊢
    generalize SchemaReader.expectEnd rest = ended at hstays ⊢
    cases ended <;> exact hstays

theorem staysInside_readSchema :
    StaysInside text (LogicalSchema.parse text) (readSchema.runFrom text .start) := by
  have hcolumns : StaysInside text
      (SchemaReader.whole (fun cs => commaSeparated SchemaReader.readColumn cs.length cs) text)
      ((whole readColumns).runFrom text .start) := staysInside_whole reads_readColumns
  obtain ⟨⟨t, hrun, hinside⟩, hboundary⟩ := hcolumns
  rw [readSchema, runFrom_bind, hrun, LogicalSchema.parse]
  generalize SchemaReader.whole _ text = result at hboundary ⊢
  cases result with
  | error e =>
    refine ⟨⟨t, rfl, hinside⟩, ?_⟩
    intro e' offset he
    cases he
    exact hboundary e offset rfl
  | ok columns =>
    refine ⟨⟨t, runFrom_ofResult _, hinside⟩, ?_⟩
    intro e offset he hoffset
    rw [LogicalSchema.offset?_of_ofColumns he] at hoffset
    cases hoffset

/-! ## Every run -/

/-- Wherever in a text a reader starts, it does not end up before its start. -/
def GoesForward (text : String) (scan : Scan α) : Prop :=
  ∀ t a u, t.now.Inside text → scan.runFrom text t = some (.ok a, u) →
    t.now.position ≤ u.now.position

theorem goesForward_of_reads {scan : Scan α}
    (h : ∀ depth left, depth ≤ maxTypeDepth → ∃ result, Reads text scan depth left result) :
    GoesForward text scan := by
  intro t a u hinside hrun
  obtain ⟨done, left, htext, hposition⟩ := isValid_iff.1 hinside.boundary
  obtain ⟨result, hreads⟩ := h t.now.depth left hinside.depth_le
  have hagrees := hreads t rfl hinside.depth_le ⟨done, htext, hposition⟩
  rw [hrun] at hagrees
  cases hagrees with
  | read _ _ hle _ => exact hle

/-- For every text, a run along it comes to the result that the type, or the schema, of the text is
read with, at boundaries between characters only and with no more than 64 types open. So no slice
is ever asked for that the text does not have, and the offset in an error is a boundary as well.
Names, types, symbols and keywords are never read backwards. -/
theorem runs_stay_inside (text : String) :
    StaysInside text (SqlType.parse text) ((whole readType).runFrom text .start) ∧
    StaysInside text (LogicalSchema.parse text) (readSchema.runFrom text .start) ∧
    GoesForward text readName ∧ GoesForward text readType ∧
    (∀ c, GoesForward text (tryChar c) ∧ GoesForward text (expectChar c)) ∧
    ∀ keyword, GoesForward text (tryKeyword keyword) := by
  refine ⟨staysInside_whole (reads_readType rfl), staysInside_readSchema, ?_, ?_, ?_, ?_⟩
  · exact goesForward_of_reads fun _ _ _ => ⟨_, reads_readName⟩
  · apply goesForward_of_reads
    intro depth left hdepth
    exact ⟨_, reads_readType (Nat.add_sub_of_le hdepth)⟩
  · intro c
    exact ⟨goesForward_of_reads fun _ _ _ => ⟨_, reads_tryChar c⟩,
      goesForward_of_reads fun _ _ _ => ⟨_, reads_expectChar c⟩⟩
  · intro keyword
    exact goesForward_of_reads fun _ _ _ => ⟨_, reads_tryKeyword keyword⟩

-- Each blank takes three bytes, and no type begins with the letter after the second.
example : (match SqlType.parse "\u3000array<\u3000é>" with
    | .ok _ => none
    | .error e => e.offset?) = some 12 := by
  decide +kernel

end SchemaCursor

end StandingQuery
