import TableLexer.Program.Compile
import TableLexer.Program.Scan

/-!
# The command line

One executable runs either program: the first argument is `scan` or `compile`, and the others are
the program's own. Files are those of the system.
-/

namespace TableLexer.CommandLine

/-- The kind of a failure of the system. -/
def fileError : IO.Error → FileError
  | .noFileOrDirectory .. => .notFound
  | .inappropriateType .. => .notDirectory
  | _ => .other

/-- Runs an action on the files of the system. -/
def attempt {α : Type} (action : IO α) : IO (Except FileError α) := do
  try
    return .ok (← action)
  catch e =>
    return .error (fileError e)

/-- All that a stream delivers. A folder can be opened as a file, but delivers nothing. -/
def sourceOf (readToEnd : IO ByteArray) : IO ByteSource := do
  match ← attempt readToEnd with
  | .ok bytes => return .ofBytes bytes.toList
  | .error _ => return .ofPieces [.failure .isDirectory]

/-- The files of the system. -/
def systemDisk : Disk IO where
  read path := attempt do return (← IO.FS.readBinFile path).toList
  openSource path := attempt do
    let handle ← IO.FS.Handle.mk path .read
    sourceOf handle.readBinToEnd
  write path bytes := attempt (IO.FS.writeBinFile path ⟨bytes.toArray⟩)
  makeFolders path := attempt (IO.FS.createDirAll path)

/-- Writes out a report. -/
def finish (report : Program.Report) : IO UInt32 := do
  IO.print report.stdout
  IO.eprint report.stderr
  return report.exit.toUInt32

/-- Runs the program that the first argument names. -/
def run : List String → IO UInt32
  | "scan" :: args => do
    let stdin := do sourceOf (← IO.getStdin).readBinToEnd
    let setting ← IO.getEnv "RULELEX_SKIP_SEPARATORS"
    finish (← Program.scan systemDisk args stdin setting)
  | "compile" :: args => do finish (← Program.compile systemDisk args)
  | _ => finish (.failed "" "usage: scan|compile <arguments>")

end TableLexer.CommandLine

/-- The entry point. -/
def main (args : List String) : IO UInt32 := TableLexer.CommandLine.run args
