import Mathlib.Logic.Function.Iterate
import TableLexer.Proofs.Checked
import TableLexer.Scan.Cursor

/-!
# Ticks of a cursor

Every tick leaves a cursor behind and gives out at most one token. What it does is said here once
for each control; the other modules about scans build on these equations. A cursor over sound
tables only ever looks up states that the tables have, and it never keeps empty text apart.
-/

namespace TableLexer

namespace Tick

variable {σ : Type}

/-- The cursor that a tick leaves behind. -/
def cursor : Tick σ → Cursor σ
  | moved c | gave _ c | ended c | failed _ c => c

/-- The token that a tick gives out. -/
def token? : Tick σ → Option Token
  | gave token _ => some token
  | moved _ | ended _ | failed _ _ => none

end Tick

namespace Pending

variable {t : Tables} {p : Pending}

theorem token?_of_text_ne (more : p.text ≠ "") :
    p.token? t = some ⟨t.kindOf p.state, p.text, p.start,
      if t.kindOf p.state = .word then StateId.word else p.state⟩ := by
  simp [token?, more]

theorem token?_eq_none : p.token? t = none ↔ p.text = "" := by
  rw [token?]
  split <;> simp_all

end Pending

namespace Cursor

variable {σ : Type} {t : Tables} {c c' : Cursor σ}

theorem cursor_give (t : Tables) (p : Pending) (c : Cursor σ) : (give t p c).cursor = c := by
  rw [give]
  split <;> rfl

theorem token?_give (t : Tables) (p : Pending) (c : Cursor σ) :
    (give t p c).token? = p.token? t := by
  rw [give]
  split <;> next found => simp [Tick.token?, found]

theorem give_ne_failed {p : Pending} {e : ReadError} : give t p c ≠ .failed e c' := by
  rw [give]
  split <;> simp

/-- The cursor when a token is complete: word text that is gathered then joins what was kept
apart. -/
def closed (t : Tables) (c : Cursor σ) : Cursor σ :=
  if t.kindOf c.pending.state = .word then c.setAside else c

@[simp] theorem source_closed (t : Tables) (c : Cursor σ) : (c.closed t).source = c.source := by
  rw [closed]
  split <;> rfl

@[simp] theorem lookahead_closed (t : Tables) (c : Cursor σ) :
    (c.closed t).lookahead = c.lookahead := by
  rw [closed]
  split <;> rfl

@[simp] theorem position_closed (t : Tables) (c : Cursor σ) :
    (c.closed t).position = c.position := by
  rw [closed]
  split <;> rfl

/-- The states that a cursor may look up are states of the tables, and text kept apart is not
empty. -/
structure Fit (t : Tables) (c : Cursor σ) : Prop where
  state_lt : c.state < t.rows.size
  pending_lt : c.pending.state < t.rows.size
  ready_lt : ∀ kept ∈ c.ready, kept.state < t.rows.size
  ready_ne : ∀ kept ∈ c.ready, kept.text ≠ ""

namespace Fit

theorem reserved_lt (h : t.Sound) {state : StateId} (reserved : state < 6) : state < t.rows.size :=
  Nat.lt_of_lt_of_le reserved h.six_le_size

theorem nextState_lt (sound : t.Sound) (h : c.Fit t) : c.nextState t < t.rows.size :=
  sound.next_lt h.state_lt c.lookahead

theorem setAside (sound : t.Sound) (h : c.Fit t) : c.setAside.Fit t := by
  refine ⟨h.state_lt, reserved_lt sound (show 4 < 6 by decide), ?_, ?_⟩ <;> intro kept mem <;>
    simp only [Cursor.setAside] at mem <;> split at mem
  · exact h.ready_lt kept mem
  · split at mem
    · next old found =>
        cases mem
        exact h.ready_lt old found
    · cases mem
      exact h.pending_lt
  · exact h.ready_ne kept mem
  · next more =>
      split at mem
      · cases mem
        simp [more]
      · cases mem
        exact more

theorem closed (sound : t.Sound) (h : c.Fit t) : (c.closed t).Fit t := by
  rw [Cursor.closed]
  split
  · exact h.setAside sound
  · exact h

end Fit

/-- Nothing is left to give out, and nothing will be read any more. -/
structure Exhausted (c : Cursor σ) : Prop where
  finished : Control.ofState c.state = .finish
  nothing_kept : c.ready = none
  nothing_gathered : c.pending = .startingAt c.position

variable [CharSource σ]

/-- The cursor after one more tick. -/
def step (t : Tables) (c : Cursor σ) : Cursor σ := (c.tick t).cursor

/-- The tokens that a number of ticks give out. -/
def given (t : Tables) : Nat → Cursor σ → List Token
  | 0, _ => []
  | n + 1, c => (c.tick t).token?.toList ++ given t n (c.step t)

theorem given_add (t : Tables) (m n : Nat) (c : Cursor σ) :
    given t (m + n) c = given t m c ++ given t n ((step t)^[m] c) := by
  induction m generalizing c with
  | zero => simp [given]
  | succ m ih =>
      rw [show m + 1 + n = m + n + 1 by omega, given, ih, given, Function.iterate_succ_apply,
        List.append_assoc]

/-- Ticks lead from one cursor to another and give out some tokens on the way. -/
def Leads (t : Tables) (c : Cursor σ) (tokens : List Token) (c' : Cursor σ) : Prop :=
  ∃ n, (step t)^[n] c = c' ∧ given t n c = tokens

namespace Leads

variable {c₁ c₂ c₃ : Cursor σ} {tokens more : List Token}

theorem refl (t : Tables) (c : Cursor σ) : Leads t c [] c := ⟨0, rfl, rfl⟩

theorem trans (first : Leads t c₁ tokens c₂) (second : Leads t c₂ more c₃) :
    Leads t c₁ (tokens ++ more) c₃ := by
  obtain ⟨m, rfl, rfl⟩ := first
  obtain ⟨n, rfl, rfl⟩ := second
  refine ⟨m + n, ?_, given_add t m n c₁⟩
  rw [Nat.add_comm, Function.iterate_add_apply]

theorem tick (t : Tables) (c : Cursor σ) : Leads t c (c.tick t).token?.toList (c.step t) :=
  ⟨1, rfl, List.append_nil _⟩

theorem of_moved (moved : c.tick t = .moved c') : Leads t c [] c' :=
  ⟨1, by simp [step, moved, Tick.cursor], by simp [given, moved, Tick.token?]⟩

end Leads

section Equations

theorem tick_advance_none (h : Control.ofState c.state = .advance) (ends : c.lookahead = none) :
    c.tick t = .moved { c with state := c.nextState t } := by
  simp only [tick, h, ends]

theorem tick_advance_error {ch : Char} {e : ReadError} {source : σ}
    (h : Control.ofState c.state = .advance) (look : c.lookahead = some ch)
    (read : CharSource.read c.source = (.error e, source)) :
    c.tick t = .failed e { c.gather ch with source := source } := by
  simp only [tick, h, look, read]

theorem tick_advance {ch : Char} {next : Option Char} {source : σ}
    (h : Control.ofState c.state = .advance) (look : c.lookahead = some ch)
    (read : CharSource.read c.source = (.ok next, source)) :
    c.tick t = .moved { c.gather ch with
      source := source
      lookahead := next
      state := t.next c.state (t.alphabet.symbolOf next) } := by
  simp only [tick, h, look, read]

theorem tick_startToken (h : Control.ofState c.state = .startToken) :
    c.tick t = .moved { c.setAside with state := c.nextState t } := by
  simp only [tick, h]

theorem tick_endToken (h : Control.ofState c.state = .endToken) :
    c.tick t = match (c.closed t).ready with
      | some kept => give t kept { c.closed t with state := c.nextState t, ready := none }
      | none => .moved { c.closed t with state := c.nextState t } := by
  rw [closed]
  cases kept : (if t.kindOf c.pending.state = .word then c.setAside else c).ready with
  | none => simp only [tick, h, kept]
  | some p => simp only [tick, h, kept]

theorem tick_flush (h : Control.ofState c.state = .flush) :
    c.tick t = match c.pending.token? t with
      | some token => .gave token
          { c with pending := .startingAt c.position, state := c.nextState t }
      | none => .moved { c with pending := .startingAt c.position, state := c.nextState t } := by
  cases found : c.pending.token? t with
  | none => simp only [tick, h, found]
  | some token => simp only [tick, h, found]

theorem tick_finish (h : Control.ofState c.state = .finish) :
    c.tick t = match c.ready with
      | some kept => give t kept { c with ready := none }
      | none => give t c.pending { c with pending := .startingAt c.position } := by
  cases kept : c.ready with
  | none => simp only [tick, h, kept]
  | some p => simp only [tick, h, kept]

theorem step_startToken (h : Control.ofState c.state = .startToken) :
    c.step t = { c.setAside with state := c.nextState t } := by
  rw [step, tick_startToken h, Tick.cursor]

theorem step_endToken (h : Control.ofState c.state = .endToken) :
    c.step t = { c.closed t with state := c.nextState t, ready := none } := by
  rw [step, tick_endToken h]
  cases kept : (c.closed t).ready with
  | some p => exact cursor_give t p _
  | none => simp only [Tick.cursor, kept]

theorem step_flush (h : Control.ofState c.state = .flush) :
    c.step t = { c with pending := .startingAt c.position, state := c.nextState t } := by
  rw [step, tick_flush h]
  split <;> rfl

theorem step_finish (h : Control.ofState c.state = .finish) :
    c.step t = match c.ready with
      | some _ => { c with ready := none }
      | none => { c with pending := .startingAt c.position } := by
  rw [step, tick_finish h]
  split <;> exact cursor_give t _ _

theorem token?_endToken (h : Control.ofState c.state = .endToken) :
    (c.tick t).token? = (c.closed t).ready.bind (Pending.token? t) := by
  rw [tick_endToken h]
  cases (c.closed t).ready with
  | some p => exact token?_give t p _
  | none => rfl

theorem token?_flush (h : Control.ofState c.state = .flush) :
    (c.tick t).token? = c.pending.token? t := by
  rw [tick_flush h]
  split <;> next found => rw [found]; rfl

theorem token?_finish (h : Control.ofState c.state = .finish) :
    (c.tick t).token? = match c.ready with
      | some kept => kept.token? t
      | none => c.pending.token? t := by
  rw [tick_finish h]
  split <;> exact token?_give t _ _

end Equations

namespace Fit

/-- A cursor before its first character. -/
theorem start (sound : t.Sound) {source : σ} (h : Cursor.start source = .ok c) : c.Fit t := by
  rw [Cursor.start] at h
  split at h
  · cases h
  · cases h
    exact ⟨reserved_lt sound (show 1 < 6 by decide), reserved_lt sound (show 4 < 6 by decide),
      by simp, by simp⟩

/-- Ticks stay inside the tables. -/
theorem step (sound : t.Sound) (h : c.Fit t) : (c.step t).Fit t := by
  have next := h.nextState_lt sound
  cases control : Control.ofState c.state with
  | advance =>
      cases look : c.lookahead with
      | none =>
          rw [Cursor.step, tick_advance_none control look]
          exact ⟨next, h.pending_lt, h.ready_lt, h.ready_ne⟩
      | some ch =>
          rcases read : CharSource.read c.source with ⟨e | following, source⟩
          · rw [Cursor.step, tick_advance_error control look read]
            exact ⟨h.state_lt, h.state_lt, h.ready_lt, h.ready_ne⟩
          · rw [Cursor.step, tick_advance control look read]
            exact ⟨sound.next_lt h.state_lt following, h.state_lt, h.ready_lt, h.ready_ne⟩
  | startToken =>
      rw [step_startToken control]
      have aside := h.setAside sound
      exact ⟨next, aside.pending_lt, aside.ready_lt, aside.ready_ne⟩
  | endToken =>
      rw [step_endToken control]
      exact ⟨next, (h.closed sound).pending_lt, by simp, by simp⟩
  | flush =>
      rw [step_flush control]
      exact ⟨next, reserved_lt sound (show 4 < 6 by decide), h.ready_lt, h.ready_ne⟩
  | finish =>
      rw [step_finish control]
      split
      · exact ⟨h.state_lt, h.pending_lt, by simp, by simp⟩
      · exact ⟨h.state_lt, reserved_lt sound (show 4 < 6 by decide), h.ready_lt, h.ready_ne⟩

theorem iterate (sound : t.Sound) (h : c.Fit t) (n : Nat) : ((Cursor.step t)^[n] c).Fit t := by
  induction n generalizing c with
  | zero => exact h
  | succ n ih => exact ih (h.step sound)

end Fit

/-- The stream ends only when nothing is left. -/
theorem Fit.exhausted_of_tick (sound : t.Sound) (h : c.Fit t) (ended : c.tick t = .ended c') :
    c'.Exhausted := by
  cases control : Control.ofState c.state with
  | advance =>
      cases look : c.lookahead with
      | none => simp [tick_advance_none control look] at ended
      | some ch =>
          rcases read : CharSource.read c.source with ⟨e | following, source⟩
          · simp [tick_advance_error control look read] at ended
          · simp [tick_advance control look read] at ended
  | startToken => simp [tick_startToken control] at ended
  | endToken =>
      rw [tick_endToken control] at ended
      split at ended
      · next kept found =>
          have more := (h.closed sound).ready_ne kept found
          simp [give, Pending.token?_of_text_ne more] at ended
      · cases ended
  | flush =>
      rw [tick_flush control] at ended
      split at ended <;> cases ended
  | finish =>
      rw [tick_finish control] at ended
      split at ended
      · next kept found =>
          simp [give, Pending.token?_of_text_ne (h.ready_ne kept found)] at ended
      · next found =>
          cases given : c.pending.token? t with
          | some token => simp [give, given] at ended
          | none =>
              simp only [give, given, Tick.ended.injEq] at ended
              subst ended
              exact ⟨control, found, rfl⟩

/-- A tick fails only where reading does. -/
theorem read_of_tick_failed {e : ReadError} (h : c.tick t = .failed e c') :
    ∃ source, CharSource.read c.source = (.error e, source) := by
  cases control : Control.ofState c.state with
  | advance =>
      cases look : c.lookahead with
      | none => simp [tick_advance_none control look] at h
      | some ch =>
          rcases read : CharSource.read c.source with ⟨e' | following, source⟩
          · rw [tick_advance_error control look read] at h
            cases h
            exact ⟨source, rfl⟩
          · simp [tick_advance control look read] at h
  | startToken => simp [tick_startToken control] at h
  | endToken =>
      rw [tick_endToken control] at h
      split at h
      · exact absurd h give_ne_failed
      · cases h
  | flush =>
      rw [tick_flush control] at h
      split at h <;> cases h
  | finish =>
      rw [tick_finish control] at h
      split at h <;> exact absurd h give_ne_failed

/-- What is exhausted stays so, whatever its source might still hold. -/
theorem Exhausted.tick_eq (h : c.Exhausted) : c.tick t = .ended c := by
  obtain ⟨source, state, lookahead, position, pending, ready⟩ := c
  obtain ⟨finished, rfl, gathered⟩ := h
  obtain rfl : pending = .startingAt position := gathered
  rw [tick_finish finished]
  rfl

theorem Exhausted.iterate_eq (h : c.Exhausted) (n : Nat) :
    (step t)^[n] c = c ∧ given t n c = [] := by
  have same : c.step t = c := by rw [step, h.tick_eq, Tick.cursor]
  induction n with
  | zero => exact ⟨rfl, rfl⟩
  | succ n ih =>
      rw [Function.iterate_succ_apply, given, same, h.tick_eq]
      exact ⟨ih.1, ih.2⟩

end Cursor

end TableLexer
