import TableLexer.TokenKind

/-!
# Reserved states

The first six states are the same in every automaton. Four of them steer the scan and consume
nothing; every other state consumes the next character. What the scan does in a state is therefore
known from the state's number alone.
-/

namespace TableLexer

/-- A row of the transition table. -/
abbrev StateId := Nat

namespace StateId

/-- The end of the stream with nothing left to give out. -/
def finish : StateId := 0

/-- The word text gathered so far ends here and a new token begins. -/
def startToken : StateId := 1

/-- The token being gathered is complete. -/
def endToken : StateId := 2

/-- A complete token is given out and a new one begins. -/
def flush : StateId := 3

/-- Inside a word. -/
def word : StateId := 4

/-- Inside a run of separators. -/
def separatorRun : StateId := 5

/-- The kinds of the reserved states, by number. -/
def reservedKinds : List TokenKind := [.empty, .empty, .empty, .empty, .word, .separator]

end StateId

/-- What the scan does in a state. -/
inductive Control where
  /-- Gathers the next character and moves on the one after it. -/
  | advance
  /-- Sets the gathered word text aside and begins a token at the next character. -/
  | startToken
  /-- Closes the token being gathered. -/
  | endToken
  /-- Gives out the gathered token and begins another one at the next character. -/
  | flush
  /-- Gives out what is left, then nothing. -/
  | finish
  deriving DecidableEq

/-- The control of a state. -/
def Control.ofState : StateId → Control
  | 0 => finish
  | 1 => startToken
  | 2 => endToken
  | 3 => flush
  | _ => advance

end TableLexer
