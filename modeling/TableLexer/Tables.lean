import TableLexer.Automaton.Wiring

/-!
# Tables

Tables are all that a scan needs: the frozen alphabet, the rows of next states, the kind of each
state and the index of the exact rules. They come from a blueprint or are put together from stored
parts. Stored parts are checked: whatever passes can be scanned with, for no row leads out of the
table, no state consumes past the end of the stream and the steering states always come to an end.

Two tables are equal when they have the same rows, kinds, characters and exact rules; the alphabet
and the index are maps, so the order in which they were filled does not count.
-/

namespace TableLexer

/-- Everything a scan needs. The alphabet is frozen, and its size is the width of every row. -/
structure Tables where
  alphabet : Alphabet
  rows : Array (Array StateId)
  kinds : Array TokenKind
  lexemes : Std.ExtTreeMap String StateId
  deriving DecidableEq

namespace Tables

/-- The number of states. -/
def stateCount (t : Tables) : Nat := t.kinds.size

/-- The number of columns. -/
def width (t : Tables) : Nat := t.alphabet.size

/-- The next state on a symbol. -/
def next (t : Tables) (state : StateId) (s : Symbol) : StateId :=
  ((t.rows[state]?).bind (·[s]?)).getD StateId.finish

/-- The kind of the text that a state gathers. -/
def kindOf (t : Tables) (state : StateId) : TokenKind := (t.kinds[state]?).getD .empty

/-- The state that completes an exact rule. Where case is ignored, the key is the folded text. -/
def lexemeState? (t : Tables) (text : String) : Option StateId := t.lexemes[text]?

/-- The text of the exact rule that a state completes; of several the first in the order of
texts. -/
def lexemeOf? (t : Tables) (state : StateId) : Option String :=
  (t.lexemes.toList.find? (·.2 == state)).map (·.1)

/-- The tables of a blueprint. -/
def ofBlueprint (b : Blueprint) : Tables :=
  let automaton := b.automaton
  ⟨b.alphabet.freeze, automaton.rows, automaton.kinds, automaton.lexemes⟩

/-- Why parts do not make up tables. -/
inductive Defect where
  | tooFewStates (count : Nat)
  | kindCount (kinds rows : Nat)
  | tooFewSymbols (width : Nat)
  | rowWidth (state columns width : Nat)
  | missingTarget (state target : StateId)
  | consumesPastEnd (state : StateId)
  | cannotStart (kind : TokenKind) (state : StateId)
  | reservedKind (state : StateId) (found expected : TokenKind)
  | finishNotAbsorbing
  | controlLoop (symbol : Symbol) (state : StateId)
  | tooManySymbols (size width : Nat)
  | missingSymbol (char : Char) (symbol : Symbol)
  | endOfStreamChar (char : Char)
  | lexemeNotExact (text : String) (state : StateId)
  deriving DecidableEq

/-- The wording of a defect. -/
def Defect.message : Defect → String
  | tooFewStates count => s!"{count} states; at least 6 reserved states are required"
  | kindCount kinds rows => s!"token kinds for {kinds} states but {rows} transition rows"
  | tooFewSymbols width => s!"{width} symbols; the three reserved symbols are missing"
  | rowWidth state columns width => s!"row {state} has {columns} columns, expected {width}"
  | missingTarget state target => s!"row {state} targets missing state {target}"
  | consumesPastEnd state => s!"state {state} consumes past end of stream"
  | cannotStart kind state => s!"{kind.name} state {state} cannot start a new token"
  | reservedKind state found expected =>
    s!"reserved state {state} has kind {found.name}, expected {expected.name}"
  | finishNotAbsorbing => "finish state is not absorbing"
  | controlLoop symbol state => s!"control states loop on symbol {symbol} from state {state}"
  | tooManySymbols size width => s!"alphabet uses {size} symbols but the table has {width} columns"
  | missingSymbol char symbol =>
    "character " ++ Text.quotedCharacter char ++ s!" maps to missing symbol {symbol}"
  | endOfStreamChar char =>
    "character " ++ Text.quotedCharacter char ++ " maps to the end-of-stream symbol"
  | lexemeNotExact text state =>
    "lexeme " ++ Text.quoted text ++ s!" points at non-exact state {state}"

/-- What is wrong with one row: its width, a target outside the table, a way past the end of the
stream, or a hand-over of text that is no word. -/
def rowDefect? (rows : Array (Array StateId)) (kinds : Array TokenKind) (width : Nat)
    (state : StateId) : Option Defect :=
  let row := (rows[state]?).getD #[]
  let kind := (kinds[state]?).getD .empty
  if row.size ≠ width then some (.rowWidth state row.size width)
  else match row.toList.find? (rows.size ≤ ·) with
    | some target => some (.missingTarget state target)
    | none =>
      if Control.ofState ((row[Symbol.endOfStream]?).getD StateId.finish) = .advance then
        some (.consumesPastEnd state)
      else if kind ≠ .word ∧ StateId.startToken ∈ row then some (.cannotStart kind state)
      else none

/-- A reserved state whose kind is not the one it must have. -/
def reservedDefect? (kinds : Array TokenKind) : Option Defect :=
  StateId.reservedKinds.zipIdx.findSome? fun (expected, state) =>
    let found := (kinds[state]?).getD .empty
    if found = expected then none else some (.reservedKind state found expected)

/-- Whether a state consumes or finishes after at most the given number of steering moves. -/
def settles (rows : Array (Array StateId)) (s : Symbol) : Nat → StateId → Bool
  | fuel, state =>
    match Control.ofState state with
    | .advance | .finish => true
    | .startToken | .endToken | .flush =>
      match fuel with
      | 0 => false
      | fuel + 1 => settles rows s fuel (((rows[state]?).bind (·[s]?)).getD StateId.finish)

/-- A symbol on which the steering states lead back to themselves. There are three of them, so a way
that has not left them after three moves never does. -/
def controlDefect? (rows : Array (Array StateId)) (width : Nat) : Option Defect :=
  (List.range width).findSome? fun s =>
    [StateId.startToken, StateId.endToken, StateId.flush].findSome? fun state =>
      if settles rows s 3 state then none else some (.controlLoop s state)

/-- The first thing that is wrong with the rows and kinds of an automaton. -/
def shapeDefect? (rows : Array (Array StateId)) (kinds : Array TokenKind) : Option Defect :=
  let width := ((rows[0]?).getD #[]).size
  if rows.size < 6 then some (.tooFewStates rows.size)
  else if kinds.size ≠ rows.size then some (.kindCount kinds.size rows.size)
  else if width < 3 then some (.tooFewSymbols width)
  else
    (List.range rows.size).findSome? (rowDefect? rows kinds width)
      <|> reservedDefect? kinds
      <|> (if ((rows[StateId.finish]?).getD #[]).all (· == StateId.finish) then none
        else some .finishNotAbsorbing)
      <|> controlDefect? rows width

/-- The first character whose symbol is not a column that a character may have. -/
def alphabetDefect? (alphabet : Alphabet) (width : Nat) : Option Defect :=
  if width < alphabet.size then some (.tooManySymbols alphabet.size width)
  else
    (alphabet.pairs.find? (width ≤ ·.2)).map (fun (char, s) => .missingSymbol char s)
      <|> (alphabet.pairs.find? (·.2 == Symbol.endOfStream)).map (fun (char, _) =>
        .endOfStreamChar char)

/-- The first text of the index whose state does not complete an exact rule. -/
def lexemeDefect? (kinds : Array TokenKind) (lexemes : Std.ExtTreeMap String StateId) :
    Option Defect :=
  (lexemes.toList.find? fun (_, state) => !(kinds[state]?).any TokenKind.isExact).map
    fun (text, state) => .lexemeNotExact text state

/-- The first thing that is wrong with the parts of tables. -/
def defect? (alphabet : Alphabet) (rows : Array (Array StateId)) (kinds : Array TokenKind)
    (lexemes : Std.ExtTreeMap String StateId) : Option Defect :=
  shapeDefect? rows kinds
    <|> alphabetDefect? alphabet ((rows[0]?).getD #[]).size
    <|> lexemeDefect? kinds lexemes

/-- Puts tables together from their parts, unless they could not be scanned with. -/
def ofParts (alphabet : Alphabet) (rows : Array (Array StateId)) (kinds : Array TokenKind)
    (lexemes : Std.ExtTreeMap String StateId) : Except Defect Tables :=
  match defect? alphabet rows kinds lexemes with
  | some defect => .error defect
  | none => .ok ⟨.ofPairs alphabet.pairs ((rows[0]?).getD #[]).size, rows, kinds, lexemes⟩

end Tables

end TableLexer
