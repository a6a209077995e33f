import TableLexer.Program.Report
import TableLexer.Scan.Session

/-!
# The scanning program

The program takes a rule file or stored tables and scans its inputs, or the standard input if there
are none. Every token makes a line: the input with the place of the token, its kind, and its text in
quotes. What was listed before an error stays listed.

Anything that is no rule file is taken for stored tables. Stored tables do not say whether
separators are listed, so they are not; a setting from outside overrules that and the rule file
alike.
-/

namespace TableLexer.Program

/-- The line of a token. -/
def tokenLine (input : String) (token : Token) : String :=
  input ++ s!":{token.start.line}:{token.start.column}\t{token.kind.name}\t" ++
    Text.quoted token.text
    ++ "\n"

/-- The lines of the tokens among the answers of a scan. -/
def listing (input : String) (answers : List Outcome) : String :=
  String.join (answers.filterMap fun
    | .token token => some (tokenLine input token)
    | _ => none)

/-- Whether a setting from outside turns something on: all texts do but `0` and `false`. -/
def isOn (setting : String) : Bool := !(setting == "0" || setting.toLower == "false")

/-- The lines of an input, and the number of its tokens or what failed. -/
def scanInput (t : Tables) (skipSeparators : Bool) (input : String) (source : ByteSource) :
    String × Except String Nat :=
  match (Session.ofTables t skipSeparators).bind source with
  | (.error _, _) => ("", .error ("read " ++ input))
  | (.ok (), session) =>
    let answers := (session.take (CharSource.remaining source + 1)).1
    match answers.getLast? with
    | some (.failed _) => (listing input answers, .error ("scan " ++ input))
    | _ => (listing input answers, .ok (answers.countP fun answer => answer matches .token _))

/-- The tables to scan with and whether separators are skipped. -/
def loadLexer {m : Type → Type} [Monad m] (disk : Disk m) (path : String) :
    m (Except StorageError (Tables × Bool)) := do
  match ← disk.loadRules path with
  | .ok file => return .ok (file.toRuleSet.compile, file.toRuleSet.skipSeparators)
  | .error _ => return (← disk.loadTables path).map (·, true)

/-- Scans inputs in turn. `count` is the number of all inputs, and the output and the number of
tokens so far are carried along. -/
def scanInputs {m : Type → Type} [Monad m] (disk : Disk m) (t : Tables) (skipSeparators : Bool)
    (count : Nat) : String → Nat → List String → m Report
  | out, total, [] =>
    return ⟨0, out, s!"[rulelex] {total} tokens from {count} input(s)\n"⟩
  | out, total, input :: rest => do
    match ← disk.openSource input with
    | .error _ => return .failed out ("open " ++ input)
    | .ok source =>
      match scanInput t skipSeparators input source with
      | (lines, .error reason) => return .failed (out ++ lines) reason
      | (lines, .ok n) => scanInputs disk t skipSeparators count (out ++ lines) (total + n) rest

/-- Scans the standard input. -/
def scanStdin (t : Tables) (skipSeparators : Bool) (stdin : ByteSource) : Report :=
  match scanInput t skipSeparators "<stdin>" stdin with
  | (lines, .error reason) => .failed lines reason
  | (lines, .ok n) => ⟨0, lines, s!"[rulelex] {n} tokens from 1 input(s)\n"⟩

/-- The program with its arguments, the standard input, which is read only if no input is named, and
the setting for skipping separators. -/
def scan {m : Type → Type} [Monad m] (disk : Disk m) (args : List String) (stdin : m ByteSource)
    (setting : Option String) : m Report :=
  match args with
  | [] => return .failed "" "usage: rulelex <rules.json|tables.json|tables.bin> [input...]"
  | path :: inputs => do
    match ← loadLexer disk path with
    | .error e => return .failed "" e.headline
    | .ok (t, skip) =>
      let skipSeparators := setting.elim skip isOn
      match inputs with
      | [] => return scanStdin t skipSeparators (← stdin)
      | _ => scanInputs disk t skipSeparators inputs.length "" 0 inputs

end TableLexer.Program
