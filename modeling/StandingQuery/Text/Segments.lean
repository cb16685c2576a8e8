/-!
# Texts split at a separator

A text splits into the segments between its separators, empty ones included, so there is
always at least one.

* `splitOn_eq_iff`: the segments are the only lists without the separator which make up the whole
  with a separator between neighbours.
* `intercalate_segments`, `segments_append`, `segments_intercalate`: the same on `String`.
* `append_last_inj`, `append_first_inj`: a text is split at its last or its first separator in only
  one way.
-/

namespace StandingQuery.Text

theorem not_mem_of_mem_splitOn {sep : Char} {cs s : List Char} (h : s ∈ cs.splitOn sep) :
    sep ∉ s := by
  induction cs generalizing s with
  | nil =>
    obtain rfl : s = [] := by simpa using h
    exact List.not_mem_nil
  | cons c cs ih =>
    rw [List.splitOn_cons_eq_if_modifyHead] at h
    split at h
    · rcases List.mem_cons.1 h with rfl | h
      · exact List.not_mem_nil
      · exact ih h
    · rename_i hc
      cases hs : cs.splitOn sep with
      | nil => exact absurd hs (List.splitOn_ne_nil sep cs)
      | cons t ts =>
        rw [hs, List.modifyHead_cons] at h
        rcases List.mem_cons.1 h with rfl | h
        · have ht : sep ∉ t := ih (hs ▸ List.mem_cons_self)
          have hne : sep ≠ c := fun he => hc (beq_iff_eq.2 he.symm)
          simp [ht, hne]
        · exact ih (hs ▸ List.mem_cons_of_mem t h)

/-- The segments of a text are told by three things: there is one at least, none has the separator
in it, and they make up the text. -/
theorem splitOn_eq_iff {sep : Char} {cs : List Char} {ss : List (List Char)} :
    cs.splitOn sep = ss ↔ ss ≠ [] ∧ (∀ s ∈ ss, sep ∉ s) ∧ [sep].intercalate ss = cs := by
  constructor
  · rintro rfl
    exact ⟨List.splitOn_ne_nil sep cs, fun s hs => not_mem_of_mem_splitOn hs,
      List.intercalate_splitOn sep⟩
  · rintro ⟨hne, hfree, rfl⟩
    exact List.splitOn_intercalate sep hfree hne

/-- The segments of a text, as texts. -/
def segments (sep : Char) (text : String) : List String :=
  (text.toList.splitOn sep).map String.ofList

theorem intercalate_segments (sep : Char) (text : String) :
    (String.singleton sep).intercalate (segments sep text) = text := by
  rw [← String.toList_inj, String.toList_intercalate, segments, List.map_map]
  have h : (String.toList ∘ String.ofList) = id := by
    funext cs
    simp
  simp [h, List.intercalate_splitOn]

theorem segments_append {sep : Char} {text s t : String}
    (h : text.toList = s.toList ++ sep :: t.toList) :
    segments sep text = segments sep s ++ segments sep t := by
  rw [segments, h, List.splitOn_append_cons_self, List.map_append]
  rfl

theorem segments_of_not_mem {sep : Char} {text : String} (h : sep ∉ text.toList) :
    segments sep text = [text] := by
  rw [segments, List.splitOn_eq_singleton h, List.map_singleton, String.ofList_toList]

theorem not_mem_of_mem_segments {sep : Char} {text s : String} (h : s ∈ segments sep text) :
    sep ∉ s.toList := by
  obtain ⟨cs, hcs, rfl⟩ := List.mem_map.1 h
  rw [String.toList_ofList]
  exact not_mem_of_mem_splitOn hcs

/-- A text that is put together splits into the segments of its parts. -/
theorem segments_intercalate {sep : Char} {texts : List String} (h : texts ≠ []) :
    segments sep ((String.singleton sep).intercalate texts) = texts.flatMap (segments sep) := by
  induction texts with
  | nil => exact absurd rfl h
  | cons s texts ih =>
    by_cases hrest : texts = []
    · subst hrest
      rw [String.intercalate_singleton, List.flatMap_singleton]
    · have happend := String.intercalate_cons_of_ne_nil (s := String.singleton sep) (t := s) hrest
      rw [List.flatMap_cons, ← ih hrest]
      apply segments_append
      rw [happend, String.toList_append, String.toList_append, String.toList_singleton,
        List.append_assoc]
      rfl

/-- A text is split at its last separator in only one way. -/
theorem append_last_inj {sep : Char} {xs ys s t : List Char} (hs : sep ∉ s) (ht : sep ∉ t)
    (h : xs ++ sep :: s = ys ++ sep :: t) : xs = ys ∧ s = t := by
  rcases List.append_eq_append_iff.1 h with ⟨zs, rfl, hz⟩ | ⟨zs, rfl, hz⟩
  · cases zs with
    | nil =>
      cases hz
      exact ⟨(List.append_nil xs).symm, rfl⟩
    | cons z zs =>
      obtain ⟨_, rfl⟩ := List.cons.inj hz
      exact absurd (List.mem_append_right _ List.mem_cons_self) hs
  · cases zs with
    | nil =>
      cases hz
      exact ⟨List.append_nil ys, rfl⟩
    | cons z zs =>
      obtain ⟨_, rfl⟩ := List.cons.inj hz
      exact absurd (List.mem_append_right _ List.mem_cons_self) ht

/-- A text is split at its first separator in only one way. -/
theorem append_first_inj {sep : Char} {xs ys s t : List Char} (hx : sep ∉ xs) (hy : sep ∉ ys)
    (h : xs ++ sep :: s = ys ++ sep :: t) : xs = ys ∧ s = t := by
  have hrev : s.reverse ++ sep :: xs.reverse = t.reverse ++ sep :: ys.reverse := by
    simpa using congrArg List.reverse h
  obtain ⟨hs, hxy⟩ := append_last_inj (by simpa using hx) (by simpa using hy) hrev
  exact ⟨List.reverse_inj.1 hxy, List.reverse_inj.1 hs⟩

end StandingQuery.Text
