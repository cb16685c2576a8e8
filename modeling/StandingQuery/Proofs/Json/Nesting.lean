import StandingQuery.Json.Scanner

/-!
# How deep a scanned value can be

The machine opens a container only while fewer than `maxDepth` are open. To see that what
it completes is no deeper either, the depth of everything kept in the state is counted from the
bottom of the stack: each frame holds values that stand inside it and inside the frames below,
and the mode holds values that stand inside all frames.

* `State.step_fits`, `State.run_fits`: no byte and no text takes the machine too deep.
* `scan_depth_le`: a scanned value has at most `maxDepth` containers enclosing each other.
-/

namespace StandingQuery.Json

/-! ## Depths of items and members -/

namespace Value

theorem depthOfItems_le_iff {vs : List Value} {n : Nat} :
    depthOfItems vs ≤ n ↔ ∀ v ∈ vs, v.depth ≤ n := by
  induction vs with
  | nil => simp [depthOfItems]
  | cons v vs ih => rw [depthOfItems, Nat.max_le, ih, List.forall_mem_cons]

theorem depthOfMembers_le_iff {ms : List (String × Value)} {n : Nat} :
    depthOfMembers ms ≤ n ↔ ∀ m ∈ ms, m.2.depth ≤ n := by
  induction ms with
  | nil => simp [depthOfMembers]
  | cons m ms ih =>
    obtain ⟨k, v⟩ := m
    rw [depthOfMembers, Nat.max_le, ih, List.forall_mem_cons]

theorem depthOfItems_reverse (vs : List Value) : depthOfItems vs.reverse = depthOfItems vs := by
  apply Nat.le_antisymm
  · exact depthOfItems_le_iff.2 fun v hv =>
      depthOfItems_le_iff.1 (Nat.le_refl _) v (List.mem_reverse.1 hv)
  · exact depthOfItems_le_iff.2 fun v hv =>
      depthOfItems_le_iff.1 (Nat.le_refl _) v (List.mem_reverse.2 hv)

theorem depthOfMembers_insert_le (key : String) (v : Value) (ms : List (String × Value)) :
    depthOfMembers (Entries.insert key v ms) ≤ max v.depth (depthOfMembers ms) := by
  apply depthOfMembers_le_iff.2
  intro m hm
  rcases Entries.mem_insert hm with rfl | hm
  · exact Nat.le_max_left _ _
  · exact Nat.le_trans (depthOfMembers_le_iff.1 (Nat.le_refl _) m hm) (Nat.le_max_right _ _)

end Value

/-! ## What a state holds -/

open Value

/-- How many containers a frame adds: itself and the deepest of the values in it. -/
def Frame.depth : Frame → Nat
  | .item before => depthOfItems before + 1
  | .member before _ => depthOfMembers before + 1

/-- How many containers a mode adds to those on the stack. -/
def Mode.depth : Mode → Nat
  | .value | .number _ | .string _ => 0
  | .arrayStart | .objectStart => 1
  | .afterItem items => depthOfItems items + 1
  | .key members | .keyText members _ | .colon members _ | .afterMember members =>
    depthOfMembers members + 1
  | .word _ v | .done v => v.depth

namespace State

/-- No frame goes deeper than is allowed, counted from the bottom of the stack. -/
def FramesFit : List Frame → Prop
  | [] => True
  | f :: stack => stack.length + f.depth ≤ maxDepth ∧ FramesFit stack

theorem FramesFit.length_le {stack : List Frame} (h : FramesFit stack) :
    stack.length ≤ maxDepth := by
  cases stack with
  | nil => exact Nat.zero_le _
  | cons f stack =>
    have hf : 0 < f.depth := by cases f <;> exact Nat.succ_pos _
    have hs := h.1
    rw [List.length_cons]
    omega

/-- Nothing in the state goes deeper than is allowed. -/
structure Fits (s : State) : Prop where
  frames : FramesFit s.stack
  mode : s.stack.length + s.mode.depth ≤ maxDepth

/-- A value that comes next adds nothing to the frames that it stands in. -/
theorem value_fits {stack : List Frame} (h : FramesFit stack) : Fits ⟨stack, .value⟩ :=
  ⟨h, h.length_le⟩

theorem start_fits : start.Fits := value_fits trivial

theorem complete_fits {v : Value} {stack : List Frame} (hs : FramesFit stack)
    (hv : stack.length + v.depth ≤ maxDepth) : (complete v stack).Fits := by
  cases stack with
  | nil => exact ⟨trivial, hv⟩
  | cons f stack =>
    obtain ⟨hf, hs⟩ := hs
    rw [List.length_cons] at hv
    cases f with
    | item before =>
      refine ⟨hs, ?_⟩
      simp only [complete, Mode.depth, Frame.depth, depthOfItems] at hf ⊢
      omega
    | member before key =>
      have hi := depthOfMembers_insert_le key v before
      refine ⟨hs, ?_⟩
      simp only [complete, Mode.depth, Frame.depth] at hf ⊢
      omega

theorem beginValue_fits {stack : List Frame} {b : UInt8} {t : State} (hs : FramesFit stack)
    (h : beginValue stack b = .ok t) : t.Fits := by
  have hl := hs.length_le
  unfold beginValue at h
  split at h
  · cases h
    exact ⟨hs, hl⟩
  split at h
  · split at h
    · rename_i hlt
      cases h
      exact ⟨hs, hlt⟩
    · cases h
  split at h
  · split at h
    · rename_i hlt
      cases h
      exact ⟨hs, hlt⟩
    · cases h
  split at h
  · cases h
    exact ⟨hs, hl⟩
  split at h
  · cases h
    exact ⟨hs, hl⟩
  split at h
  · cases h
    exact ⟨hs, hl⟩
  split at h
  · cases h
    exact ⟨hs, hl⟩
  · cases h

theorem afterValue_fits {s t : State} {b : UInt8} (hs : s.Fits) (h : afterValue s b = .ok t) :
    t.Fits := by
  obtain ⟨stack, mode⟩ := s
  obtain ⟨hf, hm⟩ := hs
  unfold afterValue at h
  split at h
  · cases h
    exact ⟨hf, hm⟩
  cases mode with
  | afterItem items =>
    simp only at h
    split at h
    · cases h
      exact value_fits ⟨hm, hf⟩
    split at h
    · cases h
      refine complete_fits hf ?_
      rw [Value.depth, depthOfItems_reverse]
      exact hm
    · cases h
  | afterMember members =>
    simp only at h
    split at h
    · cases h
      exact ⟨hf, hm⟩
    split at h
    · cases h
      exact complete_fits hf hm
    · cases h
  | _ => cases h

/-- One more byte does not take the machine too deep. -/
theorem step_fits {s t : State} {b : UInt8} (hs : s.Fits) (h : s.step b = .ok t) : t.Fits := by
  obtain ⟨stack, mode⟩ := s
  have hspace : isSpace b = true → .ok ⟨stack, mode⟩ = Except.ok (ε := ScanError) t → t.Fits := by
    intro _ he
    cases he
    exact hs
  obtain ⟨hf, hm⟩ := hs
  have hl : stack.length ≤ maxDepth := hf.length_le
  unfold step at h
  cases mode with
  | value =>
    simp only at h
    split at h
    · exact hspace ‹_› h
    · exact beginValue_fits hf h
  | arrayStart =>
    simp only at h
    split at h
    · exact hspace ‹_› h
    split at h
    · cases h
      exact complete_fits hf hm
    · have hitem : FramesFit (.item [] :: stack) := ⟨hm, hf⟩
      exact beginValue_fits hitem h
  | objectStart =>
    simp only at h
    split at h
    · exact hspace ‹_› h
    split at h
    · cases h
      exact complete_fits hf hm
    split at h
    · cases h
      exact ⟨hf, hm⟩
    · cases h
  | key members =>
    simp only at h
    split at h
    · exact hspace ‹_› h
    split at h
    · cases h
      exact ⟨hf, hm⟩
    · cases h
  | keyText members text =>
    simp only at h
    split at h
    · cases h
      exact ⟨hf, hm⟩
    · cases h
      exact ⟨hf, hm⟩
    · cases h
  | colon members key =>
    simp only at h
    split at h
    · exact hspace ‹_› h
    split at h
    · cases h
      exact value_fits ⟨hm, hf⟩
    · cases h
  | word left v =>
    have hc : (complete v stack).Fits := complete_fits hf hm
    match left with
    | [] => exact afterValue_fits hc h
    | [c] =>
      simp only at h
      split at h
      · cases h
        exact hc
      · cases h
    | c :: d :: left =>
      simp only at h
      split at h
      · cases h
        exact ⟨hf, hm⟩
      · cases h
  | number text =>
    simp only at h
    split at h
    · cases h
      exact ⟨hf, hm⟩
    · split at h
      · rename_i n _
        have hn : (Value.number n).depth = 0 := rfl
        exact afterValue_fits (complete_fits hf (by rw [hn]; exact hl)) h
      · cases h
    · cases h
  | string text =>
    simp only at h
    split at h
    · cases h
      exact ⟨hf, hm⟩
    · cases h
      exact complete_fits hf hm
    · cases h
  | afterItem items => exact afterValue_fits ⟨hf, hm⟩ h
  | afterMember members => exact afterValue_fits ⟨hf, hm⟩ h
  | done v => exact afterValue_fits ⟨hf, hm⟩ h

/-- No text takes the machine too deep. -/
theorem run_fits {s t : State} {bs : List UInt8} (hs : s.Fits) (h : s.run bs = .ok t) :
    t.Fits := by
  induction bs generalizing s with
  | nil =>
    cases h
    exact hs
  | cons b bs ih =>
    simp only [run, List.foldlM_cons] at h
    cases hb : s.step b with
    | error e =>
      rw [hb] at h
      cases h
    | ok u =>
      rw [hb] at h
      exact ih (step_fits hs hb) h

theorem finish_depth_le {s : State} {v : Value} (hs : s.Fits) (h : s.finish = .ok v) :
    v.depth ≤ maxDepth := by
  obtain ⟨stack, mode⟩ := s
  unfold finish at h
  cases mode with
  | done w =>
    cases h
    have hm := hs.mode
    simp only [Mode.depth] at hm
    omega
  | number text =>
    simp only at h
    split at h
    · split at h
      · cases h
      · cases h
        exact Nat.zero_le _
      · cases h
    · cases h
  | _ => cases h

end State

/-- A scanned value is no deeper than is allowed. -/
theorem scan_depth_le {text : List UInt8} {v : Value} (h : scan text = .ok v) :
    v.depth ≤ maxDepth := by
  rw [scan_eq] at h
  cases hr : State.start.run text with
  | error e =>
    rw [hr] at h
    cases h
  | ok s =>
    rw [hr] at h
    exact State.finish_depth_le (State.run_fits State.start_fits hr) h

end StandingQuery.Json
