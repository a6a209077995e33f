import TableLexer.CharSource.Bytes
import TableLexer.Files.Path

/-!
# Disks

The programs reach files through four operations. A disk gives these operations in some monad: the
outer layer uses the files of the system, and a file tree is a disk in memory. A tree knows the
files that were made in it, next to the working folder as well as in or above it, and the few
places that every system has.

A path with a null character or with too many bytes is refused before it is followed, and a name
that is too long where it would be looked up.
-/

namespace TableLexer

/-- Why an operation on a file fails. -/
inductive FileError where
  | notFound
  | notDirectory
  | isDirectory
  /-- A name or the whole path has more bytes than may be. -/
  | nameTooLong
  /-- The path holds the null character, with which paths end. -/
  | nullInPath
  | other
  deriving DecidableEq

/-- The wording of a failure, if it is not the system that refuses in its own words. -/
def FileError.message? : FileError → Option String
  | nullInPath => some "file name contained an unexpected NUL byte"
  | _ => none

/-- What the programs do with files. -/
structure Disk (m : Type → Type) where
  /-- All bytes of a file. -/
  read : String → m (Except FileError (List UInt8))
  /-- A file as a source. A folder can be opened, but not read from. -/
  openSource : String → m (Except FileError ByteSource)
  /-- Makes a file with the given bytes, in place of one that is there. -/
  write : String → List UInt8 → m (Except FileError Unit)
  /-- Makes a folder and the folders around it, as far as they are missing. -/
  makeFolders : String → m (Except FileError Unit)

/-- What a name in a folder stands for. -/
inductive Entry where
  | file (bytes : List UInt8)
  | folder
  /-- Takes whatever is written and holds nothing. -/
  | sink
  deriving DecidableEq

/-- Where a path leads: from the root, or from a folder some levels above the working folder, down
through the named folders. -/
structure Location where
  up : Option Nat
  names : List String
  deriving DecidableEq

namespace Location

/-- Where a path starts. -/
def origin (path : String) : Location := ⟨if path.startsWith "/" then none else some 0, []⟩

/-- Where two dots lead. The root encloses itself. -/
def enclosing (l : Location) : Location :=
  if l.names = [] then { l with up := l.up.map (· + 1) } else { l with names := l.names.dropLast }

/-- Where a piece of a path leads from a folder. -/
def enter (l : Location) (piece : String) : Location :=
  if Path.isIdle piece then l
  else if piece = ".." then l.enclosing
  else { l with names := l.names ++ [piece] }

end Location

/-- The known files and folders. The working folder and those around it are always there. -/
structure FileTree where
  entries : List (Location × Entry)
  deriving DecidableEq

namespace FileTree

/-- The folders that every system has at its root. -/
def rootFolders : List String := ["dev", "etc", "proc", "tmp", "usr", "var"]

/-- A tree in which nothing was made. -/
def fresh : FileTree :=
  ⟨(⟨none, ["dev", "null"]⟩, .sink) :: rootFolders.map fun name => (⟨none, [name]⟩, .folder)⟩

/-- What is at a location. -/
def entry? (t : FileTree) (l : Location) : Option Entry :=
  if l.names = [] then some .folder else t.entries.lookup l

/-- Puts an entry in place of what was at a location before. -/
def put (t : FileTree) (l : Location) (entry : Entry) : FileTree :=
  ⟨(l, entry) :: t.entries.filter (·.1 != l)⟩

/-- Where one more piece of a path leads, which must have led to a folder so far. -/
def step (t : FileTree) (l : Location) (piece : String) : Except FileError Location :=
  match t.entry? l with
  | none => .error .notFound
  | some .folder =>
    if Path.nameLimit < piece.utf8ByteSize then .error .nameTooLong else .ok (l.enter piece)
  | some (.file _) | some .sink => .error .notDirectory

/-- Refuses what cannot be a path. -/
def checkPath (path : String) : Except FileError Unit :=
  if '\x00' ∈ path.toList then .error .nullInPath
  else if Path.pathLimit < path.utf8ByteSize then .error .nameTooLong
  else .ok ()

/-- Where a path leads. Every piece but the last must lead to a folder. -/
def locate (t : FileTree) (path : String) : Except FileError Location := do
  checkPath path
  if path = "" then .error .notFound else (Path.pieces path).foldlM t.step (.origin path)

/-- What a path leads to. -/
def find (t : FileTree) (path : String) : Except FileError Entry := do
  match t.entry? (← t.locate path) with
  | none => .error .notFound
  | some entry => .ok entry

/-- All bytes of a file. -/
def read (t : FileTree) (path : String) : Except FileError (List UInt8) := do
  match ← t.find path with
  | .file bytes => .ok bytes
  | .folder => .error .isDirectory
  | .sink => .ok []

/-- A file as a source. -/
def openSource (t : FileTree) (path : String) : Except FileError ByteSource := do
  match ← t.find path with
  | .file bytes => .ok (.ofBytes bytes)
  | .folder => .ok (.ofPieces [.failure .isDirectory])
  | .sink => .ok (.ofBytes [])

/-- Makes a file. A path that ends with a slash can only name a folder. -/
def write (t : FileTree) (path : String) (bytes : List UInt8) : Except FileError FileTree := do
  checkPath path
  if path.endsWith "/" then
    let named := ((Path.pieces path).reverse.dropWhile (· == "")).reverse
    let _ ← (named.dropLast ++ [""]).foldlM t.step (.origin path)
    .error .isDirectory
  else
    let l ← t.locate path
    match t.entry? l with
    | some .folder => .error .isDirectory
    | some .sink => .ok t
    | none | some (.file _) => .ok (t.put l (.file bytes))

/-- Makes the folders that the pieces of a path name one after the other, as far as they are
missing. Those made before a failure stay. -/
def makeAlong (t : FileTree) (here : Location) : List String → Except FileError Unit × FileTree
  | [] => (.ok (), t)
  | piece :: rest =>
    match t.step here piece with
    | .error e => (.error e, t)
    | .ok l =>
      match t.entry? l with
      | none => makeAlong (t.put l .folder) l rest
      | some .folder => makeAlong t l rest
      | some (.file _) | some .sink => (.error .notDirectory, t)

/-- Makes a folder and the folders around it. -/
def makeFolders (t : FileTree) (path : String) : Except FileError Unit × FileTree :=
  match checkPath path with
  | .error e => (.error e, t)
  | .ok () => t.makeAlong (.origin path) (Path.pieces path)

/-- Adds a file, together with the folders that its path names. -/
def add (t : FileTree) (path : String) (bytes : List UInt8) : FileTree :=
  let t' := match Path.folder? path with
    | some folder => (t.makeFolders folder).2
    | none => t
  match t'.write path bytes with
  | .ok written => written
  | .error _ => t'

/-- The tree of the given files. -/
def ofFiles (files : List (String × List UInt8)) : FileTree :=
  files.foldl (fun t (path, bytes) => t.add path bytes) fresh

/-- Keeps a changed tree, and reports whether it was changed. -/
def store (change : FileTree → Except FileError FileTree) :
    StateM FileTree (Except FileError Unit) := fun t =>
  match change t with
  | .ok t' => (.ok (), t')
  | .error e => (.error e, t)

/-- A file tree as a disk. -/
def disk : Disk (StateM FileTree) where
  read path := return (← get).read path
  openSource path := return (← get).openSource path
  write path bytes := store (·.write path bytes)
  makeFolders path := fun t => t.makeFolders path

end FileTree

end TableLexer
