import TableLexer.Automaton.Control

/-!
# Tokens and positions

A token is a piece of the scanned text with its kind, the place where it begins and the state that
produced it. Lines and columns count from one; a line feed ends its line.
-/

namespace TableLexer

/-- The place of a character in a text. -/
structure Position where
  line : Nat
  column : Nat
  deriving DecidableEq

namespace Position

/-- The place of the first character. -/
def start : Position := ⟨1, 1⟩

/-- The place behind a character. -/
def after (p : Position) (c : Char) : Position :=
  if c = '\n' then ⟨p.line + 1, 1⟩ else ⟨p.line, p.column + 1⟩

/-- The place behind a text. -/
def afterAll (p : Position) (cs : List Char) : Position := cs.foldl after p

end Position

/-- A piece of the scanned text. For a keyword or an operator the state is the one that the index of
exact rules gives for its text; every word reports the same state. -/
structure Token where
  kind : TokenKind
  text : String
  start : Position
  state : StateId
  deriving DecidableEq

end TableLexer
