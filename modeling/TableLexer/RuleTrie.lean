import TableLexer.TokenKind

/-!
# Rule tries

A rule trie is the list of its nodes in the order of their creation. A node is known by the path
that leads to it from the root, the text it spells; the root itself, which spells the empty text,
is not listed. So a node's parent and children are found by their paths, and the number of a node
is its place in the list, counted from one.

The opening trie holds the texts that may begin a token of some rule. A comment or a literal also
owns a closing trie with the sequences that matter inside it.
-/

namespace TableLexer

/-- A comment rule or a literal rule, by its number among the rules of its family. -/
inductive Region where
  | comment (rule : Nat)
  | literal (rule : Nat)
  deriving DecidableEq

/-- The kind of the tokens that a rule with a body makes. -/
def Region.kind : Region → TokenKind
  | comment _ => .comment
  | literal _ => .literal

/-- What a complete rule text does. -/
inductive Accept where
  /-- A keyword or an operator: the token ends here. -/
  | exact (kind : TokenKind)
  /-- An opening sequence: the body of a comment or a literal follows. -/
  | opens (region : Region)
  /-- A closing or escaping sequence inside a body of the given kind. -/
  | close (kind : TokenKind)
  deriving DecidableEq

/-- The kind of the text gathered on completion. -/
def Accept.kind : Accept → TokenKind
  | exact kind | close kind => kind
  | opens region => region.kind

/-- A node of a rule trie, other than the root. -/
structure TrieNode where
  path : List Char
  /-- What the path does as a complete rule text, if it is one. -/
  accept : Option Accept
  /-- A complete text with this mark leads back into the body and ends nothing. -/
  escape : Bool
  deriving DecidableEq

namespace TrieNode

/-- The last character of the path. -/
def char (node : TrieNode) : Char := node.path.getLastD '\x00'

/-- Whether the path is a complete rule text. -/
def isFinal (node : TrieNode) : Bool := node.accept.isSome

/-- The rule text that ends at this node. -/
def lexeme? (node : TrieNode) : Option String := node.accept.map fun _ => String.ofList node.path

/-- Whether a text that completes here ends the token. -/
def endsBody (node : TrieNode) : Bool := node.isFinal && !node.escape

end TrieNode

/-- The character by which the second text is longer than the first, if it continues it by one. -/
def nextAfter? : List Char → List Char → Option Char
  | [], [c] => some c
  | a :: as, b :: bs => if a = b then nextAfter? as bs else none
  | _, _ => none

theorem nextAfter?_eq_some {p q : List Char} {c : Char} :
    nextAfter? p q = some c ↔ q = p ++ [c] := by
  induction p generalizing q with
  | nil =>
    match q with
    | [] => simp [nextAfter?]
    | [d] => simp [nextAfter?]
    | _ :: _ :: _ => simp [nextAfter?]
  | cons a as ih =>
    cases q with
    | nil => simp [nextAfter?]
    | cons b bs =>
      by_cases h : a = b
      · simp [nextAfter?, h, ih]
      · simp [nextAfter?, h, Ne.symm h]

/-- The nodes of a prefix tree of rule texts, in the order of their creation. -/
structure RuleTrie where
  nodes : List TrieNode
  deriving DecidableEq

namespace RuleTrie

/-- The trie without any text. -/
def empty : RuleTrie := ⟨[]⟩

/-- The node that spells a text. -/
def node? (t : RuleTrie) (path : List Char) : Option TrieNode := t.nodes.find? (·.path == path)

/-- Whether some text of the trie starts with the path. -/
def contains (t : RuleTrie) (path : List Char) : Bool := t.nodes.any (·.path == path)

/-- Creates the missing nodes on the way from `done` through the characters of a list. -/
def grow (escape : Bool) (t : RuleTrie) (done : List Char) : List Char → RuleTrie
  | [] => t
  | c :: rest =>
    let path := done ++ [c]
    let t' := if t.contains path then t else ⟨t.nodes ++ [⟨path, none, escape⟩]⟩
    grow escape t' path rest

/-- Makes a text of the trie a complete rule text. -/
def complete (t : RuleTrie) (text : List Char) (accept : Accept) (escape : Bool) : RuleTrie :=
  ⟨t.nodes.map fun node =>
    if node.path = text then { node with accept := some accept, escape := node.escape || escape }
    else node⟩

/-- Registers a rule text. Of several registrations of one text the last one counts, and the empty
text is none. -/
def insert (t : RuleTrie) (text : List Char) (accept : Accept) : RuleTrie :=
  (t.grow false [] text).complete text accept false

/-- Registers an escaping sequence: its last node and the nodes it creates carry the escape mark. -/
def insertEscaped (t : RuleTrie) (text : List Char) (accept : Accept) : RuleTrie :=
  (t.grow true [] text).complete text accept true

/-- The characters that follow a path, in the order of registration. -/
def children (t : RuleTrie) (path : List Char) : List Char :=
  t.nodes.filterMap fun node => nextAfter? path node.path

/-- Whether the trie holds no text. -/
def isEmpty (t : RuleTrie) : Bool := t.nodes.isEmpty

/-- The number of nodes, without the root. -/
def size (t : RuleTrie) : Nat := t.nodes.length

/-- The last characters of all nodes. -/
def chars (t : RuleTrie) : List Char := t.nodes.map TrieNode.char

/-- Puts a node behind all nodes below its parent. -/
def placeBelowParent (order : List TrieNode) (node : TrieNode) : List TrieNode :=
  let apart := fun other : TrieNode => !node.path.dropLast.isPrefixOf other.path
  (order.reverse.dropWhile apart).reverse ++ node :: (order.reverse.takeWhile apart).reverse

/-- All nodes, each parent before its children and each subtree in one piece; children keep the
order of their registration. -/
def preorder (t : RuleTrie) : List TrieNode := t.nodes.foldl placeBelowParent []

/-- The number of the node that spells a text, counted from one. -/
def idOf? (t : RuleTrie) (path : List Char) : Option Nat :=
  (t.nodes.findIdx? (·.path == path)).map (· + 1)

/-- The text that a numbered node spells. The root has the number zero. -/
def path? (t : RuleTrie) : Nat → Option (List Char)
  | 0 => some []
  | i + 1 => (t.nodes[i]?).map TrieNode.path

/-- The number of the node reached from a numbered node by one character. -/
def child? (t : RuleTrie) (id : Nat) (c : Char) : Option Nat :=
  (t.path? id).bind fun path => t.idOf? (path ++ [c])

end RuleTrie

/-- The tries of a rule set: the shared opening trie and one closing trie for each comment and each
literal. -/
structure RuleForest where
  opening : RuleTrie
  comments : List RuleTrie
  literals : List RuleTrie

namespace RuleForest

/-- The tries of no rules. -/
def empty : RuleForest := ⟨.empty, [], []⟩

/-- The closing trie of a comment or a literal. -/
def closing (f : RuleForest) : Region → RuleTrie
  | .comment i => (f.comments[i]?).getD .empty
  | .literal i => (f.literals[i]?).getD .empty

/-- The comments and then the literals, each family in the order of its rules. -/
def regions (f : RuleForest) : List Region :=
  (List.range f.comments.length).map .comment ++ (List.range f.literals.length).map .literal

/-- Every character that some rule mentions. -/
def chars (f : RuleForest) : List Char :=
  f.opening.chars ++ f.comments.flatMap RuleTrie.chars ++ f.literals.flatMap RuleTrie.chars

end RuleForest

end TableLexer
