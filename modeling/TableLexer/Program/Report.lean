import TableLexer.Files.Storage

/-!
# Reports of programs

A program writes text to its two outputs and ends with an exit code. An error ends it with the code
one and a line that says what was being done.
-/

namespace TableLexer.Program

/-- What a program leaves behind, its files apart. -/
structure Report where
  exit : Nat
  stdout : String
  stderr : String
  deriving DecidableEq

/-- A program that stops with an error after some output. -/
def Report.failed (stdout reason : String) : Report := ⟨1, stdout, "Error: " ++ reason ++ "\n"⟩

end TableLexer.Program
