import TableLexer.Files.Disk
import TableLexer.RuleFile
import TableLexer.Stored.Load

/-!
# Tables and rules on disk

Loading and saving by path. A failure to load names the file; its wording begins with what was being
done and goes on with the cause, as far as that is known here.
-/

namespace TableLexer

/-- Why something could not be loaded from a file. -/
inductive StorageError where
  | unread (path : String) (cause : FileError)
  | badTables (path : String) (cause : Tables.LoadError)
  | badRules (path : String)
  deriving DecidableEq

namespace StorageError

/-- What was being done. -/
def headline : StorageError → String
  | unread path _ => "read " ++ path
  | badTables path _ => "load tables from " ++ path
  | badRules path => "rules file " ++ path

/-- What was being done, and the cause. -/
def message : StorageError → String
  | unread path cause => (unread path cause).headline
  | badTables path cause => (badTables path cause).headline ++ ": " ++ cause.message
  | badRules path => (badRules path).headline ++ ": " ++ RuleFile.unreadable

end StorageError

namespace Disk

variable {m : Type → Type} [Monad m]

/-- The tables in a file, in either form. -/
def loadTables (disk : Disk m) (path : String) : m (Except StorageError Tables) := do
  match ← disk.read path with
  | .error e => return .error (.unread path e)
  | .ok bytes => return (Tables.load bytes).mapError (.badTables path)

/-- The rule file at a path. -/
def loadRules (disk : Disk m) (path : String) : m (Except StorageError RuleFile) := do
  match ← disk.read path with
  | .error e => return .error (.unread path e)
  | .ok bytes =>
    match RuleFile.read? bytes with
    | some file => return .ok file
    | none => return .error (.badRules path)

/-- Writes tables as JSON on one line. -/
def saveJson (disk : Disk m) (path : String) (t : Tables) : m (Except FileError Unit) :=
  disk.write path (Text.Utf8.ofString t.toCompactJson)

/-- Writes tables in binary form. -/
def saveBinary (disk : Disk m) (path : String) (t : Tables) : m (Except FileError Unit) :=
  disk.write path t.toBinary

end Disk

end TableLexer
