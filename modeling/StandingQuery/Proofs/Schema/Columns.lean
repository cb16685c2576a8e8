import StandingQuery.Schema.LogicalSchema

/-!
# Lists of columns that make a schema

Going through columns once finds no fault exactly if there is a column, the key columns come
first and no name comes twice. Key columns that come first can be taken out without a change of
the order, and where no name comes twice a column is found by its name.

* `LogicalSchema.firstFault_eq_none_iff`: which lists of columns have no fault.
* `LogicalSchema.ofColumns_eq_ok_iff`: which schema they make.
* `LogicalSchema.KeysFirst.filter_append_filter`: key columns and value columns make up the whole.
* `LogicalSchema.find?_eq_some_iff_filter`: what is found under a name.
-/

namespace StandingQuery.LogicalSchema

/-- No key column comes after a value column. -/
def KeysFirst (columns : List Column) : Prop :=
  columns.Pairwise fun earlier later => later.isKey = true → earlier.isKey = true

theorem faultAfter_eq_none_iff {seen : List String} {afterValue : Bool} {columns : List Column} :
    faultAfter seen afterValue columns = none ↔
      (afterValue = true → ∀ c ∈ columns, c.isKey = false) ∧ KeysFirst columns ∧
        (columns.map Column.name).Nodup ∧ ∀ c ∈ columns, c.name ∉ seen := by
  induction columns generalizing seen afterValue with
  | nil => simp [faultAfter, KeysFirst]
  | cons c columns ih =>
    unfold faultAfter
    split
    · rename_i h
      obtain ⟨hkey, hafter⟩ := Bool.and_eq_true_iff.1 h
      simp [hkey, hafter]
    split
    · rename_i hseen
      simp [hseen]
    rename_i hfirst hseen
    rw [ih]
    constructor
    · rintro ⟨hvalues, hkeys, hnodup, hfresh⟩
      refine ⟨?_, List.pairwise_cons.2 ⟨?_, hkeys⟩, List.nodup_cons.2 ⟨?_, hnodup⟩,
        List.forall_mem_cons.2 ⟨hseen, ?_⟩⟩
      · intro hafter
        refine List.forall_mem_cons.2 ⟨?_, hvalues (by simp [hafter])⟩
        simpa [hafter] using hfirst
      · intro d hd hkey
        cases hc : c.isKey with
        | true => rfl
        | false =>
          rw [hvalues (by simp [hc]) d hd] at hkey
          cases hkey
      · intro hmem
        obtain ⟨d, hd, hname⟩ := List.mem_map.1 hmem
        exact hfresh d hd (hname ▸ List.mem_cons_self)
      · exact fun d hd hmem => hfresh d hd (List.mem_cons_of_mem _ hmem)
    · rintro ⟨hvalues, hkeys, hnodup, hfresh⟩
      obtain ⟨hfirstKey, hkeys⟩ := List.pairwise_cons.1 hkeys
      obtain ⟨hname, hnodup⟩ := List.nodup_cons.1 hnodup
      refine ⟨?_, hkeys, hnodup, ?_⟩
      · intro hafter d hd
        cases hvalue : afterValue with
        | true => exact hvalues hvalue d (List.mem_cons_of_mem c hd)
        | false =>
          have hc : c.isKey = false := by simpa [hvalue] using hafter
          exact Bool.eq_false_iff.2 fun hkey => by simp [hfirstKey d hd hkey] at hc
      · intro d hd hmem
        rcases List.mem_cons.1 hmem with heq | hmem
        · exact hname (List.mem_map.2 ⟨d, hd, heq⟩)
        · exact hfresh d (List.mem_cons_of_mem c hd) hmem

/-- Columns make a schema if there is one, the key columns come first and no name comes twice. -/
theorem firstFault_eq_none_iff {columns : List Column} :
    firstFault columns = none ↔
      columns ≠ [] ∧ KeysFirst columns ∧ (columns.map Column.name).Nodup := by
  unfold firstFault
  cases columns with
  | nil => simp
  | cons c columns => simp [faultAfter_eq_none_iff]

theorem ofColumns_eq_ok_iff {columns : List Column} {s : LogicalSchema} :
    ofColumns columns = .ok s ↔ s.columns = columns := by
  unfold ofColumns
  split
  · rename_i fault hfault
    simp only [reduceCtorEq, false_iff]
    rintro rfl
    rw [s.faultless] at hfault
    cases hfault
  · rename_i hnone
    rw [Except.ok.injEq]
    constructor
    · rintro rfl
      rfl
    · rintro rfl
      rfl

/-- A list of columns makes a schema exactly if no rule is broken. -/
theorem exists_ofColumns_iff {columns : List Column} :
    (∃ s, ofColumns columns = .ok s) ↔
      columns ≠ [] ∧ KeysFirst columns ∧ (columns.map Column.name).Nodup := by
  rw [← firstFault_eq_none_iff]
  constructor
  · rintro ⟨s, hs⟩
    rw [← ofColumns_eq_ok_iff.1 hs]
    exact s.faultless
  · intro h
    exact ⟨⟨columns, h⟩, ofColumns_eq_ok_iff.2 rfl⟩

/-! ## Keys and values, and columns by name -/

/-- Where key columns come first, taking them out does not change the order. -/
theorem KeysFirst.filter_append_filter {columns : List Column} (h : KeysFirst columns) :
    (columns.filter fun c => c.isKey) ++ (columns.filter fun c => !c.isKey) = columns := by
  induction columns with
  | nil => rfl
  | cons c columns ih =>
    obtain ⟨hfirst, hrest⟩ := List.pairwise_cons.1 h
    cases hc : c.isKey with
    | true => simp [hc, ih hrest]
    | false =>
      -- After a value column there are only value columns.
      have hvalues : ∀ d ∈ columns, d.isKey = false := by
        intro d hd
        exact Bool.eq_false_iff.2 fun hkey => by simp [hfirst d hd hkey] at hc
      have hkeys : columns.filter (fun d => d.isKey) = [] := by simpa using hvalues
      have hall : columns.filter (fun d => !d.isKey) = columns := by simpa using hvalues
      simp [hc, hkeys, hall]

/-- Of columns with different names, the one that is found by its name is the only one. -/
theorem find?_eq_some_iff_filter {columns : List Column} (h : (columns.map Column.name).Nodup)
    {name : String} {c : Column} :
    (columns.find? fun d => d.name == name) = some c ↔
      (columns.filter fun d => d.name == name) = [c] := by
  rw [← List.head?_filter]
  have hnodup : ((columns.filter fun d => d.name == name).map Column.name).Nodup :=
    h.sublist (List.filter_sublist.map Column.name)
  have hname : ∀ d ∈ columns.filter fun d => d.name == name, d.name = name := by
    intro d hd
    simpa using (List.mem_filter.1 hd).2
  revert hnodup hname
  generalize (columns.filter fun d => d.name == name) = found
  intro hnodup hname
  cases found with
  | nil => simp
  | cons d found =>
    cases found with
    | nil => simp
    | cons e found =>
      have hd : d.name = name := hname d (by simp)
      have he : e.name = name := hname e (by simp)
      simp [hd, he] at hnodup

end StandingQuery.LogicalSchema
