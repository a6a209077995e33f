import TableLexer.Json.Reader
import TableLexer.Json.Writer
import TableLexer.RuleSet

/-!
# Rule files

The JSON form of a rule set. Every field may be left out; a comment without a closing text ends
with its line, and a literal without an escape text has no escapes. A name that is no field is an
error at the top and is passed over inside a comment or a literal.
-/

namespace TableLexer

/-- A comment of a rule file. -/
structure CommentEntry where
  opening : String
  closing : String
  deriving DecidableEq

/-- A literal of a rule file. -/
structure LiteralEntry where
  border : String
  escape : String
  deriving DecidableEq

/-- The content of a rule file. -/
structure RuleFile where
  keywords : List String
  operators : List String
  comments : List CommentEntry
  literals : List LiteralEntry
  separators : String
  ignoreCase : Bool
  skipSeparators : Bool
  deriving DecidableEq

namespace CommentEntry

/-- The record of a comment. -/
def toJson (c : CommentEntry) : Json :=
  .object [("open", .string c.opening), ("close", .string c.closing)]

/-- The comment in a record. -/
def ofJson? (v : Json) : Option CommentEntry := do
  match ← v.fields? ["open", "close"] true with
  | [some opening, closing] =>
    return ⟨← opening.text?, ← closing.elim (some "\n") Json.text?⟩
  | _ => none

end CommentEntry

namespace LiteralEntry

/-- The record of a literal. -/
def toJson (l : LiteralEntry) : Json :=
  .object [("border", .string l.border), ("escape", .string l.escape)]

/-- The literal in a record. -/
def ofJson? (v : Json) : Option LiteralEntry := do
  match ← v.fields? ["border", "escape"] true with
  | [some border, escape] => return ⟨← border.text?, ← escape.elim (some "") Json.text?⟩
  | _ => none

end LiteralEntry

namespace RuleFile

/-- The names of the fields, in order. -/
def fieldNames : List String :=
  ["keywords", "operators", "comments", "literals", "separators", "ignore_case", "skip_separators"]

/-- A rule file as a record with all its fields. -/
def toJson (f : RuleFile) : Json :=
  .object
    [("keywords", .array (f.keywords.map .string)),
     ("operators", .array (f.operators.map .string)),
     ("comments", .array (f.comments.map CommentEntry.toJson)),
     ("literals", .array (f.literals.map LiteralEntry.toJson)),
     ("separators", .string f.separators),
     ("ignore_case", .bool f.ignoreCase),
     ("skip_separators", .bool f.skipSeparators)]

/-- The rule file in a record. -/
def ofJson? (v : Json) : Option RuleFile := do
  match ← v.fields? fieldNames false with
  | [keywords, operators, comments, literals, separators, ignoreCase, skipSeparators] =>
    return {
      keywords := ← keywords.elim (some []) (Json.list? Json.text?)
      operators := ← operators.elim (some []) (Json.list? Json.text?)
      comments := ← comments.elim (some []) (Json.list? CommentEntry.ofJson?)
      literals := ← literals.elim (some []) (Json.list? LiteralEntry.ofJson?)
      separators := ← separators.elim (some "") Json.text?
      ignoreCase := ← ignoreCase.elim (some false) Json.bool?
      skipSeparators := ← skipSeparators.elim (some true) Json.bool? }
  | _ => none

/-- The rule file that a text spells. -/
def read? (bytes : List UInt8) : Option RuleFile := (Json.read? bytes).bind ofJson?

/-- A rule file on one line. -/
def write (f : RuleFile) : String := f.toJson.compact

/-- What a rule file declares, in the order in which it takes effect. -/
def declarations (f : RuleFile) : List Declaration :=
  [.keywords f.keywords, .operators f.operators, .separators f.separators,
   .ignoreCase f.ignoreCase, .skipSeparators f.skipSeparators]
    ++ f.comments.map (fun c => .comment c.opening c.closing)
    ++ f.literals.map (fun l => .literal l.border l.escape)

/-- The rule set of a rule file. -/
def toRuleSet (f : RuleFile) : RuleSet := .ofDeclarations f.declarations

/-- What is dropped from a rule file. -/
def warnings (f : RuleFile) : List RuleWarning := f.declarations.flatMap Declaration.warnings

/-- The message for a text that is no rule file. -/
def unreadable : String := "failed to parse rules JSON"

end RuleFile

end TableLexer
