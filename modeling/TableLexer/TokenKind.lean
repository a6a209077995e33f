import TableLexer.Text.Quoted

/-!
# Token kinds

Every state of a compiled automaton is labelled with the kind of text it gathers. States that only
steer the scan carry the kind `empty`. Kinds have a name and a code number, which stored tables use.
-/

namespace TableLexer

/-- What a piece of scanned text is. -/
inductive TokenKind where
  | operator
  | literal
  | comment
  | separator
  | word
  | empty
  | keyword
  deriving DecidableEq

namespace TokenKind

/-- All kinds, in the order of their codes. -/
def all : List TokenKind := [operator, literal, comment, separator, word, empty, keyword]

/-- The name of a kind in stored tables and in listings. -/
def name : TokenKind → String
  | operator => "operator"
  | literal => "literal"
  | comment => "comment"
  | separator => "separator"
  | word => "word"
  | empty => "empty"
  | keyword => "keyword"

/-- The number of a kind in binary tables. -/
def code : TokenKind → Nat
  | operator => 0
  | literal => 1
  | comment => 2
  | separator => 3
  | word => 4
  | empty => 5
  | keyword => 6

/-- The kind with the given name. -/
def ofName? (text : String) : Option TokenKind := all.find? (·.name == text)

/-- The kind with the given number. -/
def ofCode? (number : Nat) : Option TokenKind := all.find? (·.code == number)

/-- A name or a number that belongs to no kind. -/
inductive Unknown where
  | name (text : String)
  | code (number : Nat)
  deriving DecidableEq

/-- The wording for a name or a number that belongs to no kind. -/
def Unknown.message : Unknown → String
  | name text => "unknown token kind " ++ Text.quoted text
  | code number => toString number

/-- The kind with the given name, or a complaint. -/
def ofName (text : String) : Except Unknown TokenKind :=
  match ofName? text with
  | some kind => .ok kind
  | none => .error (.name text)

/-- The kind with the given number, or a complaint. -/
def ofCode (number : Nat) : Except Unknown TokenKind :=
  match ofCode? number with
  | some kind => .ok kind
  | none => .error (.code number)

/-- Keywords and operators: the kinds whose tokens spell out the text of a rule. -/
def isExact : TokenKind → Bool
  | keyword | operator => true
  | _ => false

@[simp] theorem ofName?_name (kind : TokenKind) : ofName? kind.name = some kind := by
  cases kind <;> decide

@[simp] theorem ofCode?_code (kind : TokenKind) : ofCode? kind.code = some kind := by
  cases kind <;> decide

theorem code_of_ofCode? {number : Nat} {kind : TokenKind} (found : ofCode? number = some kind) :
    kind.code = number := by
  rw [ofCode?] at found
  simpa only [beq_iff_eq] using List.find?_some found

end TokenKind

end TableLexer
