import TableLexer.RuleSet
import TableLexer.Scan.Cursor

/-!
# Scanning sessions

A session binds tables to one source at a time and remembers the last answer it gave. Binding
closes the source bound before and reads the first character of the new one; if either fails, the
session is left without a source. Only a request that succeeds, or a successful binding, changes
what is remembered.
-/

namespace TableLexer

/-- A scanner over one source at a time. -/
structure Session (σ : Type) where
  tables : Tables
  skipSeparators : Bool
  cursor : Option (Cursor σ)
  current : Option Token

namespace Session

variable {σ : Type}

/-- A session without a source. -/
def ofTables (tables : Tables) (skipSeparators : Bool) : Session σ :=
  ⟨tables, skipSeparators, none, none⟩

/-- A session without a source over the tables of a rule set, with the rule set's own setting. -/
def ofRules (rules : RuleSet) : Session σ := ofTables rules.compile rules.skipSeparators

/-- The same session with separators skipped or not from now on. -/
def setSkipSeparators (s : Session σ) (on : Bool) : Session σ := { s with skipSeparators := on }

/-- Whether a source is bound. -/
def isBound (s : Session σ) : Bool := s.cursor.isSome

/-- Closes the bound source and gives it back. It is no longer bound even if closing fails. -/
def unbind [CharSource σ] (s : Session σ) : Except ReadError (Option σ) × Session σ :=
  match s.cursor with
  | none => (.ok none, s)
  | some c =>
    match CharSource.close c.source with
    | (.ok (), source) => (.ok (some source), { s with cursor := none })
    | (.error e, _) => (.error e, { s with cursor := none })

/-- Binds a source in place of the one bound before. -/
def bind [CharSource σ] (s : Session σ) (source : σ) : Except ReadError Unit × Session σ :=
  match s.unbind with
  | (.error e, s') => (.error e, s')
  | (.ok _, s') =>
    match Cursor.start source with
    | .error e => (.error e, s')
    | .ok c => (.ok (), { s' with cursor := some c, current := none })

/-- The next token. Without a source there is none, and nothing changes. -/
def next [CharSource σ] (s : Session σ) : Outcome × Session σ :=
  match s.cursor with
  | none => (.finished, s)
  | some c =>
    match c.next s.tables s.skipSeparators with
    | (.token token, c') => (.token token, { s with cursor := some c', current := some token })
    | (.finished, c') => (.finished, { s with cursor := some c', current := none })
    | (other, c') => (other, { s with cursor := some c' })

/-- The answers to at most so many requests, up to the first that gives no token. -/
def take [CharSource σ] : Nat → Session σ → List Outcome × Session σ
  | 0, s => ([], s)
  | count + 1, s =>
    match s.next with
    | (.token token, s') =>
      let (rest, s'') := take count s'
      (.token token :: rest, s'')
    | (other, s') => ([other], s')

/-- The answers to at most so many requests, up to the end of the stream. A failed request does
not end them. -/
def answers [CharSource σ] : Nat → Session σ → List Outcome
  | 0, _ => []
  | count + 1, s =>
    match s.next with
    | (.finished, _) | (.stalled, _) => []
    | (other, s') => other :: answers count s'

/-- The kind of the current token; `empty` when there is none. -/
def currentKind (s : Session σ) : TokenKind := (s.current.map Token.kind).getD .empty

end Session

end TableLexer
