import TableLexer.Automaton.Control
import TableLexer.RuleTrie

/-!
# Places of an automaton

A place says what a state of a compiled automaton means: one of the six reserved states, a partly
or wholly read opening text, the body of a comment or a literal, or a partly read closing sequence
in such a body. The layout lists the places of a rule forest; a state's number is its place in
that list.
-/

namespace TableLexer

/-- The meaning of a state. -/
inductive Place where
  | finish
  | startToken
  | endToken
  | flush
  | word
  | separatorRun
  /-- The given part of an opening text has been read. -/
  | opening (path : List Char)
  /-- Inside the body of a comment or a literal. -/
  | body (region : Region)
  /-- Inside such a body, the given part of a closing sequence has been read. -/
  | closing (region : Region) (path : List Char)
  deriving DecidableEq

namespace Place

/-- The reserved places, in the order of their state numbers. -/
def reserved : List Place := [finish, startToken, endToken, flush, word, separatorRun]

end Place

namespace RuleForest

/-- The places that belong to one comment or literal. -/
def regionPlaces (f : RuleForest) (region : Region) : List Place :=
  .body region :: (f.closing region).preorder.map fun node => .closing region node.path

/-- All places of the automaton for a rule forest, in the order of their state numbers. -/
def places (f : RuleForest) : List Place :=
  Place.reserved ++ f.opening.preorder.map (fun node => .opening node.path)
    ++ f.regions.flatMap f.regionPlaces

/-- The kind of the text that is gathered at a place. An opening text that is not complete counts as
word text until it is. -/
def kindAt (f : RuleForest) : Place → TokenKind
  | .finish | .startToken | .endToken | .flush => .empty
  | .word => .word
  | .separatorRun => .separator
  | .opening path => (((f.opening.node? path).bind TrieNode.accept).map Accept.kind).getD .word
  | .body region | .closing region _ => region.kind

end RuleForest

end TableLexer
