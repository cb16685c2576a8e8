import Mathlib.Data.List.Basic
import StandingQuery.Plan.Node

/-!
# Paths and their segments

A context is made of segments, and is taken apart again where state stores are named. A path always
comes back from its segments. The segments come back from the path only if there are any and none
of them has a slash in it. A segment with slashes comes back in pieces, and no segment at all as one
that is empty.

* `QueryContext.segments_ofSegments`: what comes back in any case.
* `QueryContext.segments_tell_path`: when it is what was put in.
-/

namespace StandingQuery.QueryContext

/-- The segments of a path that was joined are those of its parts. -/
theorem segments_ofSegments (parts : List String) : (ofSegments parts).segments =
    if parts = [] then [""] else parts.flatMap (Text.segments '/') := by
  by_cases h : parts = []
  · subst h
    rfl
  · rw [if_neg h]
    exact Text.segments_intercalate h

/-- A path is made up of its segments again, and a list is that of the segments of its path exactly
if it is not empty and has no slash in any segment. -/
theorem segments_tell_path : (∀ c : QueryContext, ofSegments c.segments = c) ∧
    ∀ parts : List String, (ofSegments parts).segments = parts ↔
      parts ≠ [] ∧ ∀ s ∈ parts, '/' ∉ s.toList := by
  refine ⟨ofSegments_segments, fun parts => ?_⟩
  constructor
  · intro h
    refine ⟨?_, ?_⟩
    · rw [← h]
      exact segments_ne_nil _
    · intro s hs
      rw [← h] at hs
      exact Text.not_mem_of_mem_segments hs
  · rintro ⟨hne, hfree⟩
    rw [segments_ofSegments, if_neg hne]
    calc parts.flatMap (Text.segments '/')
        = parts.flatMap (fun s => [s]) :=
          List.flatMap_congr fun s hs => Text.segments_of_not_mem (hfree s hs)
      _ = parts := List.flatMap_singleton' parts

example : (ofSegments ["A/B", "", "/"]).segments = ["A", "B", "", "", ""] := by decide

end StandingQuery.QueryContext
