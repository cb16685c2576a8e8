import StandingQuery.Corpus.FileTree
import StandingQuery.Plan.Encoding
import StandingQuery.Plan.Shape
import StandingQuery.Plan.Topology
import StandingQuery.Text.Blank

/-!
# Historical plans

A historical plan is a document as some engine version wrote it, with the topology which that
version built from it. It stands in the directory `<name>/<version>` of a corpus. Verifying it
reads the document, checks that its tags were known to the version, builds the topology again
and compares it, and reads the document once more after writing it.

* `HistoricalPlan.verify_of_decode_error`: a plan that cannot be read is reported as such.
-/

namespace StandingQuery

/-! ## Errors -/

/-- Why a historical plan cannot be loaded or verified. -/
inductive CorpusError
  /-- A file or directory cannot be read. Paths are those that messages show. -/
  | io (path : String)
  /-- A path does not end in a name and a version. -/
  | layout (path : String)
  | plan (name version : String) (e : PlanError)
  | topologyMismatch (name version expected actual : String)
  | roundTrip (name version : String)
  | versionTooOld (name version required : String)
  deriving DecidableEq, Repr

def CorpusError.message : CorpusError → String
  | io path => s!"failed to read {path}"
  | layout path => s!"invalid fixture layout: {path}"
  | plan name version e => s!"plan {name}@{version} failed to decode: " ++ e.message
  | topologyMismatch name version expected actual =>
    s!"plan {name}@{version} topology changed:\n--- expected\n{expected}\n--- actual\n{actual}"
  | roundTrip name version => s!"plan {name}@{version} does not survive re-encoding"
  | versionTooOld name version required =>
    s!"plan {name}@{version} uses tags requiring engine {required}"

/-- A document as a version wrote it, with the topology that version built. -/
structure HistoricalPlan where
  name : String
  version : EngineVersion
  plan : List UInt8
  topology : String
  deriving DecidableEq, Repr

namespace HistoricalPlan

/-! ## Loading -/

def planFile : FileName := Text.Utf8.encode "plan.json"

def topologyFile : FileName := Text.Utf8.encode "topology"

/-- The content of a file of a directory. -/
def fileContent (fs : FileSystem) (directory : FilePath) (file : FileName) :
    Except CorpusError (List UInt8) :=
  let path := FilePath.join directory file
  match fs.content? path with
  | some content => .ok content
  | none => .error (.io path.display)

/-- The name of the directory that a path leads to, which has to be a text. -/
def directoryName (path : FilePath) : Except CorpusError String :=
  match path.fileName?.bind Text.Utf8.decode? with
  | some name => .ok name
  | none => .error (.layout path.display)

/-- The version that the directory is called by to which a path leads. -/
def directoryVersion (path : FilePath) : Except CorpusError EngineVersion := do
  match EngineVersion.ofText? (← directoryName path) with
  | some version => return version
  | none => .error (.layout path.display)

/-- The name of the directory around the one that a path leads to. -/
def enclosingName (path : FilePath) : Except CorpusError String :=
  match path.parent? with
  | some parent => directoryName parent
  | none => .error (.layout path.display)

/-- The historical plan in a directory. -/
def load (fs : FileSystem) (directory : FilePath) : Except CorpusError HistoricalPlan := do
  let version ← directoryVersion directory
  let name ← enclosingName directory
  let plan ← fileContent fs directory planFile
  let topology ← fileContent fs directory topologyFile
  return {
    name := name, version := version, plan := plan,
    topology := Text.Utf8.decodeLossy topology }

/-- The paths of the directories in a directory, in order. -/
def subdirectories (fs : FileSystem) (path : FilePath) : Except CorpusError (List FilePath) :=
  match fs.subdirectories? path with
  | some names => .ok (names.map path.join)
  | none => .error (.io path.display)

/-- The historical plans of one name, in the order of their version directories. -/
def loadVersions (fs : FileSystem) (directory : FilePath) :
    Except CorpusError (List HistoricalPlan) := do
  (← subdirectories fs directory).mapM (load fs)

/-- All historical plans of a corpus, in the order of their directories. -/
def loadCorpus (fs : FileSystem) (root : FilePath) : Except CorpusError (List HistoricalPlan) := do
  return (← (← subdirectories fs root).mapM (loadVersions fs)).flatten

/-! ## Verifying -/

/-- A text without the white space at its end. -/
def trimmed (text : String) : String := String.ofList (Text.trimEnd text.toList)

/-- The document of a historical plan, if it still means what it meant. -/
def verify (h : HistoricalPlan) : Except CorpusError PlanDocument := do
  let version := h.version.toText
  let document ← (PlanDocument.decode h.plan).mapError (.plan h.name version)
  let shape ← (PlanShape.ofDocument document).mapError (.plan h.name version)
  if !shape.isReadableBy h.version then
    .error (.versionTooOld h.name version shape.minimumVersion.toText)
  else
    let expected := trimmed h.topology
    let actual := trimmed document.topologyText
    if actual ≠ expected then .error (.topologyMismatch h.name version expected actual)
    else do
      let again ← (PlanDocument.decode document.encode).mapError (.plan h.name version)
      if again ≠ document then .error (.roundTrip h.name version) else return document

theorem verify_of_decode_error {h : HistoricalPlan} {e : PlanError}
    (he : PlanDocument.decode h.plan = .error e) :
    h.verify = .error (.plan h.name h.version.toText e) := by
  simp only [verify, he]
  rfl

end HistoricalPlan

end StandingQuery
