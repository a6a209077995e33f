import TableLexer.Tables

/-!
# Rule sets

A rule set says which texts are keywords and operators, which pairs of texts enclose comments, which
texts border literals and which characters separate words. It is written down as a list of
declarations. A declaration with an empty text where there must be one is dropped with a warning.

Of rules with the same opening text the last one owns it. Otherwise the order of rules matters only
where case is ignored: of several characters with the same upper-case form, the first one keeps it.
-/

namespace TableLexer

/-- A lexical rule. -/
inductive Rule where
  /-- A keyword or an operator. -/
  | exact (kind : TokenKind) (text : String)
  /-- A comment. With an empty closing text it runs to the end of the stream. -/
  | comment (opening closing : String)
  /-- A literal. Inside it, the escape text followed by the border does not end it; an empty escape
  text escapes nothing. -/
  | literal (border escape : String)
  deriving DecidableEq

/-- Lexical rules, the characters that separate words, and two settings. -/
structure RuleSet where
  rules : List Rule
  separators : List Char
  ignoreCase : Bool
  skipSeparators : Bool
  deriving DecidableEq

/-- One statement about a lexicon. -/
inductive Declaration where
  | keywords (texts : List String)
  | operators (texts : List String)
  | comment (opening closing : String)
  /-- A comment that ends with the next line feed, which belongs to it. -/
  | lineComment (opening : String)
  | literal (border escape : String)
  | separators (chars : String)
  | ignoreCase (on : Bool)
  | skipSeparators (on : Bool)
  deriving DecidableEq

/-- Why part of a declaration is dropped. -/
inductive RuleWarning where
  | emptyText (kind : TokenKind)
  | emptyOpening
  | emptyBorder
  deriving DecidableEq

/-- The wording of a warning. -/
def RuleWarning.message : RuleWarning → String
  | emptyText kind => s!"[rules] ignoring empty {kind.name}"
  | emptyOpening => "[rules] ignoring comment rule with an empty opening sequence"
  | emptyBorder => "[rules] ignoring literal rule with an empty border"

namespace Declaration

/-- The warnings for empty texts among those of exact rules. -/
def emptyTexts (kind : TokenKind) (texts : List String) : List RuleWarning :=
  (texts.filter (· == "")).map fun _ => .emptyText kind

/-- What is dropped from a declaration. -/
def warnings : Declaration → List RuleWarning
  | keywords texts => emptyTexts .keyword texts
  | operators texts => emptyTexts .operator texts
  | comment opening _ | lineComment opening => if opening = "" then [.emptyOpening] else []
  | literal border _ => if border = "" then [.emptyBorder] else []
  | separators _ | ignoreCase _ | skipSeparators _ => []

/-- The rules that a declaration adds. -/
def rules : Declaration → List Rule
  | keywords texts => (texts.filter (· != "")).map (.exact .keyword)
  | operators texts => (texts.filter (· != "")).map (.exact .operator)
  | comment opening closing => if opening = "" then [] else [.comment opening closing]
  | lineComment opening => if opening = "" then [] else [.comment opening "\n"]
  | literal border escape => if border = "" then [] else [.literal border escape]
  | separators _ | ignoreCase _ | skipSeparators _ => []

end Declaration

namespace RuleSet

/-- No rules and no separators. Case counts, and separator tokens are dropped from scans. -/
def empty : RuleSet := ⟨[], [], false, true⟩

/-- Adds separators; a character is listed once, where it came first. -/
def addSeparators (r : RuleSet) (chars : List Char) : RuleSet :=
  { r with separators :=
      chars.foldl (fun known c => if c ∈ known then known else known ++ [c]) r.separators }

/-- A rule set with one more declaration. -/
def declare (r : RuleSet) (d : Declaration) : RuleSet :=
  let r := { r with rules := r.rules ++ d.rules }
  match d with
  | .separators chars => r.addSeparators chars.toList
  | .ignoreCase on => { r with ignoreCase := on }
  | .skipSeparators on => { r with skipSeparators := on }
  | _ => r

/-- The rule set of a list of declarations. -/
def ofDeclarations (ds : List Declaration) : RuleSet := ds.foldl declare empty

/-- Whether nothing is declared but settings. -/
def isEmpty (r : RuleSet) : Bool := r.rules.isEmpty && r.separators.isEmpty

/-- A rule text as the tries hold it. -/
def normal (r : RuleSet) (text : String) : List Char :=
  if r.ignoreCase then (Text.fold text).toList else text.toList

/-- The closing trie of a comment. -/
def commentTrie (closing : List Char) : RuleTrie := RuleTrie.empty.insert closing (.close .comment)

/-- The closing trie of a literal: the border ends it, and the border after an escape text does
not. -/
def literalTrie (border escape : List Char) : RuleTrie :=
  let closing := RuleTrie.empty.insert border (.close .literal)
  if escape.isEmpty then closing else closing.insertEscaped (escape ++ border) (.close .literal)

/-- The tries with one more rule. -/
def plant (r : RuleSet) (f : RuleForest) : Rule → RuleForest
  | .exact kind text => { f with opening := f.opening.insert (r.normal text) (.exact kind) }
  | .comment opening closing =>
    { f with
      opening := f.opening.insert (r.normal opening) (.opens (.comment f.comments.length))
      comments := f.comments ++ [commentTrie (r.normal closing)] }
  | .literal border escape =>
    { f with
      opening := f.opening.insert (r.normal border) (.opens (.literal f.literals.length))
      literals := f.literals ++ [literalTrie (r.normal border) (r.normal escape)] }

/-- The tries of all rules. -/
def forest (r : RuleSet) : RuleForest := r.rules.foldl r.plant .empty

/-- The alphabet of the rules. Separators come first, so that a declared separator keeps that role
even where it is the other case of a rule's character. -/
def alphabet (r : RuleSet) : Alphabet :=
  (r.separators.foldl Alphabet.registerSeparator .empty).registerAll r.forest.chars r.ignoreCase

/-- What the automaton of a rule set is built from. -/
def blueprint (r : RuleSet) : Blueprint := ⟨r.alphabet, r.forest⟩

/-- The tables of a rule set. -/
def compile (r : RuleSet) : Tables := .ofBlueprint r.blueprint

end RuleSet

end TableLexer
