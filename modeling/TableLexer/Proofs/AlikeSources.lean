import TableLexer.Proofs.Safety

/-!
# Sources that answer alike

A scan knows its source by what the reads are answered with. Two sources that answer every read
alike, also after an error and after the end, can therefore stand for each other: ticks, requests
and whole sessions over the one go as over the other. What differs is the bound on the characters
to come, and with it the bound on the ticks of a request; over sound tables neither bound is
reached.
-/

namespace TableLexer

namespace CharSource

variable {σ τ : Type} [CharSource σ] [CharSource τ]

/-- The source after a number of reads. -/
def after (count : Nat) (source : σ) : σ := (fun source => (read source).2)^[count] source

/-- The answer to the read that comes after a number of reads. -/
def answer (source : σ) (count : Nat) : Except ReadError (Option Char) :=
  (read (after count source)).1

theorem answer_add (source : σ) (m n : Nat) :
    answer source (m + n) = answer (after m source) n := by
  rw [answer, after, Nat.add_comm, Function.iterate_add_apply, answer, after, after]

/-- Every read of the one source is answered as the same read of the other. -/
def Alike (source : σ) (other : τ) : Prop := ∀ count, answer source count = answer other count

namespace Alike

variable {source : σ} {other : τ}

/-- The next read has one answer, and leaves sources that are alike again. -/
theorem exists_read (h : Alike source other) : ∃ answer rest rest',
    read source = (answer, rest) ∧ read other = (answer, rest') ∧ Alike rest rest' :=
  ⟨_, _, _, rfl, Prod.ext (h 0).symm rfl, fun count => h (count + 1)⟩

/-- Sources are alike if some relation between them answers the next read alike and lasts. -/
theorem of_invariant {R : σ → τ → Prop}
    (answers : ∀ source other, R source other → (read source).1 = (read other).1)
    (lasts : ∀ source other, R source other → R (read source).2 (read other).2)
    (related : R source other) : Alike source other := by
  intro count
  induction count generalizing source other with
  | zero => exact answers source other related
  | succ count ih => exact ih (lasts source other related)

end Alike

end CharSource

section Scans

variable {σ τ : Type} [CharSource σ] [CharSource τ] {t : Tables} {skip : Bool}

/-- Two scans that differ in nothing but their sources, which are alike. -/
inductive Cursor.Alike : Cursor σ → Cursor τ → Prop
  | intro (c : Cursor σ) {source : τ} (sources : CharSource.Alike c.source source) :
      Alike c (c.withSource source)

/-- Two ticks that do the same, up to the sources. -/
inductive Tick.Alike : Tick σ → Tick τ → Prop
  | moved {c : Cursor σ} {d : Cursor τ} (h : c.Alike d) : Alike (.moved c) (.moved d)
  | gave (token : Token) {c : Cursor σ} {d : Cursor τ} (h : c.Alike d) :
      Alike (.gave token c) (.gave token d)
  | ended {c : Cursor σ} {d : Cursor τ} (h : c.Alike d) : Alike (.ended c) (.ended d)
  | failed (e : ReadError) {c : Cursor σ} {d : Cursor τ} (h : c.Alike d) :
      Alike (.failed e c) (.failed e d)

namespace Cursor

variable {c : Cursor σ} {d : Cursor τ}

omit [CharSource σ] [CharSource τ] in
theorem closed_withSource (t : Tables) (c : Cursor σ) (source : τ) :
    (c.withSource source).closed t = (c.closed t).withSource source := by
  by_cases word : t.kindOf c.pending.state = .word
  · rw [closed, closed, if_pos word]
    exact if_pos word
  · rw [closed, closed, if_neg word]
    exact if_neg word

/-- Whatever a request does to a cursor, the states stay inside the tables. -/
theorem Fit.run (sound : t.Sound) (fit : c.Fit t) (fuel : Nat) :
    (c.run t skip fuel).2.Fit t := by
  induction fuel generalizing c with
  | zero => exact fit
  | succ fuel ih =>
      have next := fit.step sound
      cases tick : c.tick t with
      | moved c₁ =>
          rw [Cursor.step, tick] at next
          simp only [Cursor.run, tick]
          exact ih next
      | gave token c₁ =>
          rw [Cursor.step, tick] at next
          simp only [Cursor.run, tick]
          split
          · exact ih next
          · exact next
      | ended c₁ | failed e c₁ =>
          rw [Cursor.step, tick] at next
          simp only [Cursor.run, tick]
          exact next

namespace Alike

/-- Giving out the same text. -/
theorem give (h : c.Alike d) (p : Pending) : (give t p c).Alike (give t p d) := by
  cases given : p.token? t with
  | none =>
      simp only [Cursor.give, given]
      exact .ended h
  | some token =>
      simp only [Cursor.give, given]
      exact .gave token h

/-- A read is the only thing a tick does to a source, and it is answered alike. -/
theorem tick_withSource (t : Tables) (c : Cursor σ) {source : τ}
    (sources : CharSource.Alike c.source source) :
    (c.tick t).Alike ((c.withSource source).tick t) := by
  let d : Cursor τ := c.withSource source
  show (c.tick t).Alike (d.tick t)
  cases control : Control.ofState c.state with
  | advance =>
      cases look : c.lookahead with
      | none =>
          rw [tick_advance_none control look, tick_advance_none (c := d) control look]
          exact .moved (.intro { c with state := c.nextState t } sources)
      | some ch =>
          obtain ⟨answer, rest, rest', read, read', later⟩ := sources.exists_read
          cases answer with
          | error e =>
              rw [tick_advance_error control look read,
                tick_advance_error (c := d) control look read']
              exact .failed e (.intro { c.gather ch with source := rest } later)
          | ok next =>
              rw [tick_advance control look read, tick_advance (c := d) control look read']
              exact .moved (.intro { c.gather ch with
                source := rest
                lookahead := next
                state := t.next c.state (t.alphabet.symbolOf next) } later)
  | startToken =>
      rw [tick_startToken control, tick_startToken (c := d) control]
      exact .moved (.intro { c.setAside with state := c.nextState t } sources)
  | endToken =>
      have sources : CharSource.Alike (c.closed t).source source := by
        rwa [source_closed]
      rw [tick_endToken control, tick_endToken (c := d) control, closed_withSource]
      cases kept : (c.closed t).ready with
      | none =>
          simp only [withSource, kept]
          exact .moved (.intro { c.closed t with state := c.nextState t, ready := none } sources)
      | some p =>
          simp only [withSource, kept]
          exact give (.intro { c.closed t with state := c.nextState t, ready := none } sources) p
  | flush =>
      let next : Cursor σ :=
        { c with pending := .startingAt c.position, state := c.nextState t }
      have moved : next.Alike (next.withSource source) := .intro next sources
      rw [tick_flush control, tick_flush (c := d) control, show d.pending = c.pending from rfl]
      cases given : c.pending.token? t with
      | none => exact .moved moved
      | some token => exact .gave token moved
  | finish =>
      rw [tick_finish control, tick_finish (c := d) control, show d.ready = c.ready from rfl]
      cases kept : c.ready with
      | none =>
          let ended : Cursor σ := { c with pending := .startingAt c.position, ready := none }
          exact give (.intro ended sources) c.pending
      | some p => exact give (.intro { c with ready := none } sources) p

theorem tick (h : c.Alike d) (t : Tables) : (c.tick t).Alike (d.tick t) := by
  cases h with
  | intro sources => exact tick_withSource t c sources

/-- A run ticks as often over the one source as over the other. -/
theorem run (h : c.Alike d) (t : Tables) (skip : Bool) (fuel : Nat) :
    (c.run t skip fuel).1 = (d.run t skip fuel).1 ∧
      (c.run t skip fuel).2.Alike (d.run t skip fuel).2 := by
  induction fuel generalizing c d with
  | zero => exact ⟨rfl, h⟩
  | succ fuel ih =>
      have ticks := h.tick t
      generalize first : c.tick t = tick at ticks
      generalize second : d.tick t = tick' at ticks
      simp only [Cursor.run, first, second]
      cases ticks with
      | moved later => exact ih later
      | gave token later =>
          by_cases omitted : (skip && token.kind = .separator) = true
          · simp only [omitted, if_true]
            exact ih later
          · simp only [omitted]
            exact ⟨rfl, later⟩
      | ended later | failed e later => exact ⟨rfl, later⟩

theorem fit (h : c.Alike d) (fit : c.Fit t) : d.Fit t := by
  cases h
  exact ⟨fit.state_lt, fit.pending_lt, fit.ready_lt, fit.ready_ne⟩

/-- A request is answered alike. The bounds on the ticks may differ, but a bound that suffices for
both gives the answers of both. -/
theorem next (h : c.Alike d) (sound : t.Sound) (fit : c.Fit t) (skip : Bool) :
    (c.next t skip).1 = (d.next t skip).1 ∧ (c.next t skip).2.Alike (d.next t skip).2 := by
  have enough := (next_answered sound fit skip).2 _ (Nat.le_max_left c.budget d.budget)
  have enough' := (next_answered sound (h.fit fit) skip).2 _ (Nat.le_max_right c.budget d.budget)
  rw [← enough, ← enough']
  exact h.run t skip _

end Alike

end Cursor

/-- Two sessions that differ in nothing but their sources, which are alike. -/
structure Session.Alike (s : Session σ) (s' : Session τ) : Prop where
  tables_eq : s'.tables = s.tables
  skip_eq : s'.skipSeparators = s.skipSeparators
  current_eq : s'.current = s.current
  cursors : Option.Rel Cursor.Alike s.cursor s'.cursor

namespace Session

variable {s : Session σ} {s' : Session τ}

/-- The tables are sound, and the scan stays inside them. -/
structure Fit (s : Session σ) : Prop where
  sound : s.tables.Sound
  cursor : ∀ c ∈ s.cursor, c.Fit s.tables

theorem Fit.next (h : s.Fit) : s.next.2.Fit := by
  cases bound : s.cursor with
  | none =>
      rw [Session.next, bound]
      exact h
  | some c =>
      obtain ⟨-, cursor, tables, -⟩ := next_of_cursor bound
      refine ⟨tables ▸ h.sound, fun c' mem => ?_⟩
      rw [cursor] at mem
      cases mem
      rw [tables]
      exact (h.cursor c bound).run h.sound _

namespace Alike

/-- A request changes both sessions in the same way. -/
theorem next (h : s.Alike s') (fit : s.Fit) : s.next.1 = s'.next.1 ∧ s.next.2.Alike s'.next.2 := by
  obtain ⟨tables, skip, cursor, current⟩ := s
  obtain ⟨tables', skip', cursor', current'⟩ := s'
  obtain ⟨rfl, rfl, rfl, cursors⟩ := h
  cases cursors with
  | none => exact ⟨rfl, rfl, rfl, rfl, .none⟩
  | @some c d alike =>
      obtain ⟨same, later⟩ := alike.next fit.sound (fit.cursor c rfl) skip'
      rcases asked : c.next tables' skip' with ⟨outcome, c'⟩
      rcases asked' : d.next tables' skip' with ⟨outcome', d'⟩
      rw [asked, asked'] at same later
      obtain rfl : outcome = outcome' := same
      cases outcome with
      | token _ | finished | failed _ | stalled =>
          simp only [Session.next, asked, asked']
          exact ⟨trivial, rfl, rfl, rfl, .some later⟩

/-- Requests in a row are answered alike. -/
theorem after (h : s.Alike s') (fit : s.Fit) (count : Nat) :
    (s.after count).next.1 = (s'.after count).next.1 := by
  induction count generalizing s s' with
  | zero => exact (h.next fit).1
  | succ count ih => exact ih (h.next fit).2 fit.next

/-- Binding a source reads from it once. -/
theorem bind (t : Tables) (skip : Bool) {source : σ} {other : τ}
    (sources : CharSource.Alike source other) :
    ((ofTables t skip).bind source).1 = ((ofTables t skip).bind other).1 ∧
      ((ofTables t skip).bind source).2.Alike ((ofTables t skip).bind other).2 := by
  obtain ⟨answer, rest, rest', read, read', later⟩ := sources.exists_read
  cases answer with
  | error e =>
      simp only [Session.bind, unbind, ofTables, Cursor.start, read, read']
      exact ⟨trivial, rfl, rfl, rfl, .none⟩
  | ok first =>
      simp only [Session.bind, unbind, ofTables, Cursor.start, read, read']
      exact ⟨trivial, rfl, rfl, rfl, .some (.intro ⟨rest, _, _, _, _, _⟩ later)⟩

end Alike

/-- A session that a source was just bound to, or failed to be bound to. -/
theorem Fit.bind {t : Tables} (sound : t.Sound) (skip : Bool) (source : σ) :
    ((ofTables t skip).bind source).2.Fit := by
  cases start : Cursor.start source with
  | error e =>
      simp only [Session.bind, unbind, ofTables, start]
      exact ⟨sound, by simp⟩
  | ok c =>
      simp only [Session.bind, unbind, ofTables, start]
      refine ⟨sound, fun c' mem => ?_⟩
      cases mem
      exact .start sound start

/-- Sessions over sources that are alike give the same answers, to the binding and to every request
that follows. -/
theorem answers_alike {t : Tables} (sound : t.Sound) (skip : Bool) {source : σ} {other : τ}
    (sources : CharSource.Alike source other) :
    ((ofTables t skip).bind source).1 = ((ofTables t skip).bind other).1 ∧
      ∀ count, (((ofTables t skip).bind source).2.after count).next.1 =
        (((ofTables t skip).bind other).2.after count).next.1 := by
  obtain ⟨first, alike⟩ := Alike.bind t skip sources
  exact ⟨first, alike.after (.bind sound skip source)⟩

end Session

end Scans

end TableLexer
