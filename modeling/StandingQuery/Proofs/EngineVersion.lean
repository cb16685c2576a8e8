import Mathlib.Data.Prod.Lex
import StandingQuery.EngineVersion

/-!
# The order of engine versions

Versions are compared number by number, the major one first. This is a linear order, so of
several versions there is always a latest one.

* `EngineVersion.lt_iff`: when a version is earlier than another.
* `EngineVersion.compare_eq_cmp`: comparison is that of the numbers.
* `EngineVersion.le_eq_true_iff`, `EngineVersion.later_eq_max`: comparison by `le` and `later`
  is comparison in this order.
-/

namespace StandingQuery

namespace EngineVersion

/-- The numbers of a version, the most significant one first. -/
def numbers (v : EngineVersion) : ℕ ×ₗ ℕ ×ₗ ℕ :=
  toLex (v.major.toNat, toLex (v.minor.toNat, v.patch.toNat))

theorem numbers_injective : Function.Injective numbers := by
  intro v w h
  cases v
  cases w
  simpa [numbers, UInt32.toNat_inj] using h

/-- Versions in the lexicographic order of their numbers. -/
instance : LinearOrder EngineVersion := LinearOrder.lift' numbers numbers_injective

theorem lt_iff {v w : EngineVersion} :
    v < w ↔ v.major < w.major ∨ v.major = w.major ∧
      (v.minor < w.minor ∨ v.minor = w.minor ∧ v.patch < w.patch) := by
  have hnumbers : v < w ↔ v.numbers < w.numbers := Iff.rfl
  rw [hnumbers]
  simp only [numbers, Prod.Lex.toLex_lt_toLex, UInt32.toNat_inj, ← UInt32.lt_iff_toNat_lt]

theorem zero_le (v : EngineVersion) : ⟨0, 0, 0⟩ ≤ v := by
  rw [← not_lt, lt_iff]
  simp

theorem compare_eq_gt_iff {v w : EngineVersion} : v.compare w = .gt ↔ w < v := by
  simp only [compare, Ordering.then_eq_gt, Std.compare_eq_gt, Std.compare_eq_iff_eq, lt_iff,
    @eq_comm _ v.major, @eq_comm _ v.minor]

theorem compare_eq_lt_iff {v w : EngineVersion} : v.compare w = .lt ↔ v < w := by
  simp only [compare, Ordering.then_eq_lt, Std.compare_eq_lt, Std.compare_eq_iff_eq, lt_iff]

/-- Comparing versions is comparing their numbers. -/
theorem compare_eq_cmp (v w : EngineVersion) : v.compare w = cmp v.numbers w.numbers := by
  rcases lt_trichotomy v w with hlt | rfl | hgt
  · rw [compare_eq_lt_iff.2 hlt]
    exact ((cmp_eq_lt_iff _ _).2 hlt).symm
  · rw [cmp_self_eq_eq]
    simp [compare]
  · rw [compare_eq_gt_iff.2 hgt]
    exact ((cmp_eq_gt_iff _ _).2 hgt).symm

theorem le_eq_true_iff {v w : EngineVersion} : v.le w = true ↔ v ≤ w := by
  rw [← not_lt, ← compare_eq_gt_iff]
  simp [le]

theorem later_eq_max (v w : EngineVersion) : v.later w = max v w := by
  simp only [later, le_eq_true_iff]
  exact (max_def v w).symm

end EngineVersion

end StandingQuery
