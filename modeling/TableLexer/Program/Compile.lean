import TableLexer.Program.Report

/-!
# The compiling program

The program compiles a rule file and writes the tables, in binary form if the name of the output
ends so and as JSON otherwise. The folder of the output is made first, even if the rules turn out
to be unreadable.
-/

namespace TableLexer.Program

/-- A quotient rounded to the nearest number, and to the even one of two that are as near. -/
def roundToEven (dividend divisor : Nat) : Nat :=
  let quotient := dividend / divisor
  let twice := 2 * (dividend % divisor)
  if divisor < twice || (twice == divisor && quotient % 2 == 1) then quotient + 1 else quotient

/-- A number of bytes in units of 1024, with one decimal. -/
def kibibytes (bytes : Nat) : String :=
  let tenths := roundToEven (10 * bytes) 1024
  s!"{tenths / 10}.{tenths % 10}"

/-- The line that sums up tables. -/
def summary (t : Tables) : String :=
  let exact := t.kinds.countP TokenKind.isExact
  let words := t.kinds.countP (· == .word)
  let lexemes := t.lexemes.size
  s!"[gen_lex_tables] {t.stateCount} states x {t.width} symbols ({exact} exact-rule states, "
    ++ s!"{words} word states, {lexemes} lexemes)\n"

/-- The line that reports what was written. -/
def written (path : String) (bytes : Nat) : String :=
  s!"[gen_lex_tables] wrote {bytes} bytes (~" ++ kibibytes bytes ++ " KiB) → " ++ path ++ "\n"

/-- The form in which tables are written to a path. -/
def formFor (path : String) (t : Tables) : List UInt8 :=
  if Path.extension? path = some "bin" then t.toBinary else Text.Utf8.ofString t.toCompactJson

/-- Where tables are written if no output is named. -/
def defaultOutput : String := "tables/lexer_tables.json"

/-- Compiles a rule file into an output whose folder exists. -/
def compileTo {m : Type → Type} [Monad m] (disk : Disk m) (rules output : String) : m Report := do
  match ← disk.loadRules rules with
  | .error e => return .failed "" e.headline
  | .ok file =>
    let t := file.toRuleSet.compile
    let bytes := formFor output t
    match ← disk.write output bytes with
    | .error _ => return .failed (summary t) ("write " ++ output)
    | .ok () => return ⟨0, summary t ++ written output bytes.length, ""⟩

/-- The program with its arguments. -/
def compile {m : Type → Type} [Monad m] (disk : Disk m) (args : List String) : m Report :=
  match args with
  | [] => return .failed "" "usage: gen_lex_tables <rules.json> [out.json|out.bin]"
  | rules :: rest => do
    let output := rest.headD defaultOutput
    match Path.folder? output with
    | none => compileTo disk rules output
    | some folder =>
      match ← disk.makeFolders folder with
      | .error _ => return .failed "" ("create " ++ folder)
      | .ok () => compileTo disk rules output

end TableLexer.Program
