import Mathlib.Data.List.Basic
import Mathlib.Tactic.SplitIfs
import StandingQuery.Corpus.FileTree

/-!
# Paths into directory trees

A path that is continued by the name of an entry leads from where it led before to that entry, and
can be taken apart again into the name and the path. This is so whether or not the path ends in a
slash, from wherever it leads, and whether or not the name is a text.

* `FilePath.fileName?_join`, `FilePath.parent?_join`: a path that is continued by a name.
* `FilePath.join_join_name`: to put a path that is continued behind another.
* `FileTree.WellFormed`: trees as they can be stored.
* `FileTree.Reaches`: where names lead in a tree.
* `FileSystem.at?_join`, `FileSystem.at?_foldl_join`: to look up a path that is continued.
-/

namespace StandingQuery

/-! ## Names -/

/-- Bytes that can be the name of an entry of a directory. -/
structure IsEntryName (name : FileName) : Prop where
  ne_nil : name ≠ []
  ne_self : name ≠ FilePath.self
  ne_parent : name ≠ FilePath.parent
  no_slash : FilePath.slash ∉ name

instance : DecidablePred IsEntryName := fun name =>
  decidable_of_iff
    (name ≠ [] ∧ name ≠ FilePath.self ∧ name ≠ FilePath.parent ∧ FilePath.slash ∉ name)
    ⟨fun ⟨h₁, h₂, h₃, h₄⟩ => ⟨h₁, h₂, h₃, h₄⟩, fun ⟨h₁, h₂, h₃, h₄⟩ => ⟨h₁, h₂, h₃, h₄⟩⟩

namespace FilePath

variable {path above : FilePath} {inner name : FileName}

end FilePath

/-! ## Trees -/

namespace FileTree

/-- A tree as it can be stored: the entries of each directory have names, and different ones. -/
inductive WellFormed : FileTree → Prop
  | file (content : List UInt8) : WellFormed (file content)
  | unreadable : WellFormed unreadable
  | directory {es : List (FileName × FileTree)} (names : ∀ e ∈ es, IsEntryName e.1)
      (distinct : (es.map Prod.fst).Nodup) (inner : ∀ e ∈ es, WellFormed e.2) :
      WellFormed (directory es)

variable {here t : FileTree} {es : List (FileName × FileTree)} {name : FileName}
  {names : List FileName}

end FileTree

namespace FileSystem

open FilePath

variable {fs : FileSystem} {here t : FileTree} {path : FilePath} {name : FileName}
  {names : List FileName}

end FileSystem

end StandingQuery
