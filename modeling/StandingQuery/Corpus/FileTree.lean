import StandingQuery.Text.Utf8

/-!
# Directory trees

A tree of files and directories, and the paths that lead through it. Names and paths are bytes,
which need not be those of a text. A path is kept as it was written: its segments stand between
slashes, empty ones and single points lead nowhere else, and two points lead to the enclosing
directory. Paths that begin with a slash lead from the root, other ones from the working directory.
-/

namespace StandingQuery

/-- The name of an entry of a directory. -/
abbrev FileName := List UInt8

abbrev FilePath := List UInt8

/-- A file with its content, or a directory with its entries. -/
inductive FileTree
  /-- A file, or a link to one. -/
  | file (content : List UInt8)
  | directory (entries : List (FileName × FileTree))
  /-- Anything else, such as a socket, a link to a directory, or a file that may not be read. -/
  | unreadable

/-! ## Paths -/

namespace FilePath

def slash : UInt8 := 0x2F

/-- The segment that stands for the directory itself. -/
def self : FileName := [0x2E]

/-- The segment that stands for the enclosing directory. -/
def parent : FileName := [0x2E, 0x2E]

def segments (path : FilePath) : List FileName := path.splitOn slash

def isAbsolute (path : FilePath) : Bool := path.head? == some slash

/-- A path and a further one, which replaces the first if it begins with a slash. -/
def join (path further : FilePath) : FilePath :=
  if isAbsolute further then further
  else if path = [] ∨ path.getLast? = some slash then path ++ further
  else path ++ slash :: further

/-- The segments of a path, from the last one, without those at its end which lead nowhere else. A
point that a path begins with is kept. -/
def dropIdle : List FileName → List FileName
  | [] => []
  | [first] => if first = [] then [] else [first]
  | segment :: above =>
    if segment = [] ∨ segment = self then dropIdle above else segment :: above

/-- The name that a path ends in, unless it ends by standing still or by going up. -/
def fileName? (path : FilePath) : Option FileName :=
  (dropIdle (segments path).reverse).head?.filter fun name => name ≠ self ∧ name ≠ parent

def parent? (path : FilePath) : Option FilePath :=
  match dropIdle (segments path).reverse with
  | [] => none
  | _ :: above =>
    let rest := [slash].intercalate (dropIdle above).reverse
    some (if rest = [] ∧ isAbsolute path then [slash] else rest)

/-- A path as messages show it. -/
def display (path : FilePath) : String := Text.Utf8.decodeLossy path

end FilePath

/-! ## Looking into a tree -/

namespace FileTree

def child? (name : FileName) : FileTree → Option FileTree
  | directory es => es.lookup name
  | _ => none

/-- The tree that segments lead to from `here`; `above` are the enclosing directories. The root is
enclosed by itself. -/
def resolve (above : List FileTree) (here : FileTree) : List FileName → Option FileTree
  | [] => some here
  | s :: ss =>
    match here with
    | directory _ =>
      if s = [] ∨ s = FilePath.self then resolve above here ss
      else if s = FilePath.parent then
        match above with
        | [] => resolve [] here ss
        | up :: above => resolve above up ss
      else match here.child? s with
        | some inner => resolve (here :: above) inner ss
        | none => none
    | _ => none

/-- The names of the directories among some entries, in order. -/
def directoryNames (es : List (FileName × FileTree)) : List FileName :=
  let names := es.filterMap fun e =>
    match e.2 with
    | directory _ => some e.1
    | _ => none
  names.mergeSort fun a b => !(b < a)

end FileTree

/-- A tree with all files and directories, and the path from which relative paths lead. -/
structure FileSystem where
  root : FileTree
  workingDirectory : FilePath := [FilePath.slash]

namespace FileSystem

/-- The tree that a path leads to. The empty path leads nowhere. -/
def at? (fs : FileSystem) (path : FilePath) : Option FileTree :=
  if path = [] then none
  else FileTree.resolve [] fs.root (FilePath.segments (FilePath.join fs.workingDirectory path))

/-- The content of the file that a path leads to. -/
def content? (fs : FileSystem) (path : FilePath) : Option (List UInt8) :=
  match fs.at? path with
  | some (.file content) => some content
  | _ => none

/-- The names of the directories in the directory that a path leads to, in order. -/
def subdirectories? (fs : FileSystem) (path : FilePath) : Option (List FileName) :=
  match fs.at? path with
  | some (.directory es) => some (FileTree.directoryNames es)
  | _ => none

end FileSystem

end StandingQuery
