import TableLexer.Alphabet
import TableLexer.Automaton.Place

/-!
# Wiring of an automaton

For every place, a row says where each symbol leads. A row is a rule for all symbols together with a
list of edges that override it; the edges follow the characters of a trie. Three rules carry the
automaton: a new token is dispatched on its first character, a word runs to a separator or to the
first character of an opening text, and a body runs to the end of the stream unless its closing trie
leads out of it. A text of a trie that is not complete falls back to the row it started from, so the
character that does not fit is treated as if the text had never begun.
-/

namespace TableLexer

/-- Where each symbol leads from a place. Later edges win over earlier ones. -/
structure Row where
  edges : List (Symbol × Place)
  otherwise : Symbol → Place

namespace Row

/-- The place that a symbol leads to. -/
def target (row : Row) (s : Symbol) : Place :=
  (row.edges.reverse.lookup s).getD (row.otherwise s)

/-- The row that leads to one place on all symbols. -/
def always (place : Place) : Row := ⟨[], fun _ => place⟩

/-- A row with further edges. -/
def withEdges (row : Row) (edges : List (Symbol × Place)) : Row :=
  { row with edges := row.edges ++ edges }

@[simp] theorem target_always (place : Place) (s : Symbol) : (always place).target s = place := rfl

end Row

/-- What an automaton is built from. -/
structure Blueprint where
  alphabet : Alphabet
  forest : RuleForest

namespace Blueprint

/-- The edges from a node of a trie to its children. -/
def edges (b : Blueprint) (t : RuleTrie) (path : List Char) (place : List Char → Place) :
    List (Symbol × Place) :=
  (t.children path).map fun c => (b.alphabet.symbolOf (some c), place (path ++ [c]))

/-- The columns of the characters with which opening texts begin. -/
def firstSymbols (b : Blueprint) : List Symbol :=
  (b.forest.opening.children []).map fun c => b.alphabet.symbolOf (some c)

/-- The row of a place where a new token begins. -/
def dispatchRow (b : Blueprint) : Row where
  edges := b.edges b.forest.opening [] .opening
  otherwise s :=
    if s = Symbol.endOfStream then .finish
    else if b.alphabet.isSeparator s then .separatorRun
    else .word

/-- The row of word text. -/
def wordRow (b : Blueprint) : Row :=
  let first := b.firstSymbols
  { edges := []
    otherwise := fun s =>
      if s = Symbol.endOfStream then .endToken
      else if b.alphabet.isSeparator s || first.contains s then .startToken
      else .word }

/-- The row of a run of separators. -/
def separatorRow (b : Blueprint) : Row where
  edges := []
  otherwise s :=
    if s = Symbol.endOfStream then .endToken
    else if b.alphabet.isSeparator s then .separatorRun
    else .endToken

/-- The row of the body of a comment or a literal. -/
def bodyRow (b : Blueprint) (region : Region) : Row where
  edges := b.edges (b.forest.closing region) [] (.closing region)
  otherwise s := if s = Symbol.endOfStream then .endToken else .body region

/-- The row from which the places of an opening text start, by what the text does. -/
def openingRow (b : Blueprint) : Option Accept → Row
  | none => b.wordRow
  | some (.opens region) => b.bodyRow region
  | some (.exact _) | some (.close _) => .always .endToken

/-- The row from which the places of a closing sequence start. A complete one ends the token, unless
it is an escaping sequence. -/
def closingRow (b : Blueprint) (region : Region) (path : List Char) : Row :=
  if ((b.forest.closing region).node? path).any TrieNode.endsBody then .always .endToken
  else b.bodyRow region

/-- The row of a place. -/
def row (b : Blueprint) : Place → Row
  | .finish => .always .finish
  | .startToken | .flush => b.dispatchRow
  | .endToken => .always .flush
  | .word => b.wordRow
  | .separatorRun => b.separatorRow
  | .opening path =>
    (b.openingRow ((b.forest.opening.node? path).bind TrieNode.accept)).withEdges
      (b.edges b.forest.opening path .opening)
  | .body region => b.bodyRow region
  | .closing region path =>
    (b.closingRow region path).withEdges
      (b.edges (b.forest.closing region) path (.closing region))

end Blueprint

/-- Numbered states: a row of next states for each, the kind of the text each gathers, and the
states that complete the exact rules. -/
structure Automaton where
  rows : Array (Array StateId)
  kinds : Array TokenKind
  lexemes : Std.ExtTreeMap String StateId

/-- A row in numbers, one for each column. -/
def Row.numbered (row : Row) (places : List Place) (width : Nat) : Array StateId :=
  ((List.range width).map fun s => places.idxOf (row.target s)).toArray

/-- The rule text of a node whose completion ends a token. -/
def TrieNode.exactText? (node : TrieNode) : Option String :=
  match node.accept with
  | some (.exact _) | some (.close _) => node.lexeme?
  | some (.opens _) | none => none

/-- The automaton of a blueprint. -/
def Blueprint.automaton (b : Blueprint) : Automaton :=
  let places := b.forest.places
  let exactTexts := b.forest.opening.preorder.filterMap fun node =>
    node.exactText?.map fun text => (text, places.idxOf (.opening node.path))
  { rows := (places.map fun place => (b.row place).numbered places b.alphabet.size).toArray
    kinds := (places.map b.forest.kindAt).toArray
    lexemes := Std.ExtTreeMap.ofList exactTexts }

end TableLexer
