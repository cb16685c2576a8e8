import StandingQuery.Text.Numeral
import StandingQuery.Text.Segments

/-!
# Engine versions

A version is three numbers of 32 bits, compared in lexicographic order. Its text gives two or
three numbers separated by points; a missing third one is zero, and a dash and what follows
it are left out of account.

* `EngineVersion.later_eq_left_or_right`: the later of two versions is one of them.
-/

namespace StandingQuery

/-- The version of an engine. -/
structure EngineVersion where
  major : UInt32
  minor : UInt32
  patch : UInt32
  deriving DecidableEq, Repr

namespace EngineVersion

/-- Lexicographic comparison. -/
def compare (v w : EngineVersion) : Ordering :=
  (Ord.compare v.major w.major).then
    ((Ord.compare v.minor w.minor).then (Ord.compare v.patch w.patch))

def le (v w : EngineVersion) : Bool := v.compare w != .gt

def later (v w : EngineVersion) : EngineVersion := if v.le w then w else v

theorem later_eq_left_or_right (v w : EngineVersion) : v.later w = v ∨ v.later w = w := by
  unfold later
  split
  · exact Or.inr rfl
  · exact Or.inl rfl

def toText (v : EngineVersion) : String :=
  toString v.major.toNat ++ "." ++ toString v.minor.toNat ++ "." ++ toString v.patch.toNat

/-- The number that a field of a version's text denotes. -/
def field? (cs : List Char) : Option UInt32 :=
  match Text.Numeral.unsigned Text.max32 cs with
  | .ok n => some (UInt32.ofNat n)
  | .error _ => none

/-- The version that a text denotes. -/
def ofText? (text : String) : Option EngineVersion :=
  let core := text.toList.takeWhile (· ≠ '-')
  match (core.splitOn '.').map field? with
  | [some major, some minor] => some ⟨major, minor, 0⟩
  | [some major, some minor, some patch] => some ⟨major, minor, patch⟩
  | _ => none

end EngineVersion

end StandingQuery
