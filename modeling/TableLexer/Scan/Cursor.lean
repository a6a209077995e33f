import TableLexer.CharSource.Basic
import TableLexer.Scan.Token
import TableLexer.Tables

/-!
# Cursors

A cursor drives tables over a source with one character of lookahead. It gathers the token it is
inside of, and keeps word text apart whose end was found only when another token began. Word text
that follows joins it, so adjacent words are one token and a rule text that breaks off is never
scanned again.

A single tick does what the control of the current state says. A tick that reads may fail: the
character at hand is then gathered already, while the state and the lookahead stay.
-/

namespace TableLexer

/-- Text that is being gathered, where it began, and the state that gathered its last character. -/
structure Pending where
  text : String
  start : Position
  state : StateId
  deriving DecidableEq

namespace Pending

/-- Nothing gathered yet. -/
def startingAt (p : Position) : Pending := ⟨"", p, StateId.word⟩

/-- The token of gathered text. Empty text is no token. -/
def token? (t : Tables) (p : Pending) : Option Token :=
  if p.text = "" then none
  else
    let kind := t.kindOf p.state
    some ⟨kind, p.text, p.start, if kind = .word then StateId.word else p.state⟩

end Pending

/-- A scan in progress. -/
structure Cursor (σ : Type) where
  source : σ
  state : StateId
  lookahead : Option Char
  position : Position
  pending : Pending
  ready : Option Pending

/-- What one tick leads to. -/
inductive Tick (σ : Type) where
  | moved (c : Cursor σ)
  | gave (token : Token) (c : Cursor σ)
  | ended (c : Cursor σ)
  | failed (e : ReadError) (c : Cursor σ)

/-- What a scan gives when it is asked for a token. -/
inductive Outcome where
  | token (t : Token)
  | finished
  | failed (e : ReadError)
  /-- The steering states lead in circles; checked tables have no such states. -/
  | stalled
  deriving DecidableEq

namespace Cursor

variable {σ : Type}

/-- A cursor before the first character of a source, which it reads. -/
def start [CharSource σ] (source : σ) : Except ReadError (Cursor σ) :=
  match CharSource.read source with
  | (.error e, _) => .error e
  | (.ok first, rest) =>
    .ok ⟨rest, StateId.startToken, first, .start, .startingAt .start, none⟩

/-- The state that the lookahead leads to. -/
def nextState (t : Tables) (c : Cursor σ) : StateId :=
  t.next c.state (t.alphabet.symbolOf c.lookahead)

/-- Gathers a character. -/
def gather (ch : Char) (c : Cursor σ) : Cursor σ :=
  { c with
    pending := { c.pending with text := c.pending.text.push ch, state := c.state }
    position := c.position.after ch }

/-- Adds the gathered text to the word text that is kept apart. -/
def setAside (c : Cursor σ) : Cursor σ :=
  { c with
    pending := .startingAt c.position
    ready :=
      if c.pending.text = "" then c.ready
      else match c.ready with
        | some kept => some { kept with text := kept.text ++ c.pending.text }
        | none => some c.pending }

/-- Gives out gathered text, if there is any; else the stream has ended. -/
def give (t : Tables) (p : Pending) (c : Cursor σ) : Tick σ :=
  match p.token? t with
  | some token => .gave token c
  | none => .ended c

/-- One step of the scan. -/
def tick [CharSource σ] (t : Tables) (c : Cursor σ) : Tick σ :=
  match Control.ofState c.state with
  | .advance =>
    match c.lookahead with
    | none => .moved { c with state := c.nextState t }
    | some ch =>
      match CharSource.read c.source with
      | (.error e, source) => .failed e { c.gather ch with source := source }
      | (.ok next, source) =>
        .moved { c.gather ch with
          source := source
          lookahead := next
          state := t.next c.state (t.alphabet.symbolOf next) }
  | .startToken => .moved { c.setAside with state := c.nextState t }
  | .endToken =>
    let closed := if t.kindOf c.pending.state = .word then c.setAside else c
    let moved := { closed with state := c.nextState t }
    match moved.ready with
    | some kept => give t kept { moved with ready := none }
    | none => .moved moved
  | .flush =>
    let moved := { c with pending := .startingAt c.position, state := c.nextState t }
    match c.pending.token? t with
    | some token => .gave token moved
    | none => .moved moved
  | .finish =>
    match c.ready with
    | some kept => give t kept { c with ready := none }
    | none => give t c.pending { c with pending := .startingAt c.position }

/-- Ticks until a token is given out, the stream ends or a read fails. Separator tokens can be left
out. The number bounds the ticks. -/
def run [CharSource σ] (t : Tables) (skipSeparators : Bool) : Nat → Cursor σ → Outcome × Cursor σ
  | 0, c => (.stalled, c)
  | fuel + 1, c =>
    match c.tick t with
    | .moved c' => run t skipSeparators fuel c'
    | .gave token c' =>
      if skipSeparators && token.kind = .separator then run t skipSeparators fuel c'
      else (.token token, c')
    | .ended c' => (.finished, c')
    | .failed e c' => (.failed e, c')

/-- Enough ticks for all that a source can still deliver: three steering ticks at most lie between
two that read. -/
def budget [CharSource σ] (c : Cursor σ) : Nat := 8 * (CharSource.remaining c.source + 2)

/-- The next token of a scan. -/
def next [CharSource σ] (t : Tables) (skipSeparators : Bool) (c : Cursor σ) : Outcome × Cursor σ :=
  c.run t skipSeparators c.budget

/-- The tokens up to the end of the stream or the first failure. The number bounds the tokens. -/
def tokens [CharSource σ] (t : Tables) (skipSeparators : Bool) : Nat → Cursor σ → List Token
  | 0, _ => []
  | fuel + 1, c =>
    match c.next t skipSeparators with
    | (.token token, c') => token :: tokens t skipSeparators fuel c'
    | _ => []

end Cursor

/-- The tokens of a text. -/
def Tables.tokenize (t : Tables) (text : String) (skipSeparators : Bool) : List Token :=
  match Cursor.start (TextSource.ofString text) with
  | .error _ => []
  | .ok c => c.tokens t skipSeparators (text.length + 1)

/-- The tokens of several texts. -/
def Tables.tokenizeAll (t : Tables) (texts : List String) (skipSeparators : Bool) :
    List (List Token) :=
  texts.map (t.tokenize · skipSeparators)

end TableLexer
