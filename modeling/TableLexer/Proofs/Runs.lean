import TableLexer.Proofs.Ticks

/-!
# Runs between two tokens

A run ticks until there is something to answer. The bound on its ticks is no part of the answer:
over sound tables it is never reached. The tick that reads lowers what the source can still
deliver, and between two such ticks lie three steering ones at most, for the check has followed
the steering states in every column.
-/

namespace TableLexer

namespace Control

variable {state : StateId}

theorem ofState_eq_startToken : ofState state = .startToken ↔ state = StateId.startToken := by
  match state with
  | 1 => exact ⟨fun _ => rfl, fun _ => rfl⟩
  | 0 | 2 | 3 | _ + 4 => exact ⟨Control.noConfusion, by simp [StateId.startToken]⟩

theorem ofState_eq_endToken : ofState state = .endToken ↔ state = StateId.endToken := by
  match state with
  | 2 => exact ⟨fun _ => rfl, fun _ => rfl⟩
  | 0 | 1 | 3 | _ + 4 => exact ⟨Control.noConfusion, by simp [StateId.endToken]⟩

theorem ofState_eq_flush : ofState state = .flush ↔ state = StateId.flush := by
  match state with
  | 3 => exact ⟨fun _ => rfl, fun _ => rfl⟩
  | 0 | 1 | 2 | _ + 4 => exact ⟨Control.noConfusion, by simp [StateId.flush]⟩

end Control

/-- The tokens in an answer. -/
def Outcome.tokens : Outcome → List Token
  | .token t => [t]
  | .finished | .failed _ | .stalled => []

namespace Tables

variable {t : Tables} {s : Symbol} {state : StateId} {n : Nat}

theorem settles_succ (more : Control.ofState state ≠ .finish)
    (h : settles t.rows s (n + 1) state = true) (steers : Control.ofState state ≠ .advance) :
    settles t.rows s n (t.next state s) = true := by
  cases control : Control.ofState state with
  | advance => exact absurd control steers
  | finish => exact absurd control more
  | startToken | endToken | flush =>
      rw [settles, control] at h
      exact h

theorem not_settles_zero (more : Control.ofState state ≠ .finish)
    (steers : Control.ofState state ≠ .advance) : settles t.rows s 0 state = false := by
  cases control : Control.ofState state with
  | advance => exact absurd control steers
  | finish => exact absurd control more
  | startToken | endToken | flush => rw [settles, control]

/-- Whatever state is entered, three steering moves lead to one that reads or finishes. -/
theorem Sound.settles_three (h : t.Sound) (c : Option Char) (state : StateId) :
    settles t.rows (t.alphabet.symbolOf c) 3 state = true := by
  have column := h.width_eq ▸ h.symbolOf_lt c
  cases control : Control.ofState state with
  | advance | finish => rw [settles, control]
  | startToken =>
      rw [Control.ofState_eq_startToken.mp control]
      exact h.settles column (by decide)
  | endToken =>
      rw [Control.ofState_eq_endToken.mp control]
      exact h.settles column (by decide)
  | flush =>
      rw [Control.ofState_eq_flush.mp control]
      exact h.settles column (by decide)

end Tables

namespace Cursor

variable {σ : Type} [CharSource σ] {t : Tables} {skip : Bool} {c c' : Cursor σ} {outcome : Outcome}
variable {fuel : Nat}

/-- A steering tick moves on without reading. -/
theorem step_of_steers (steers : Control.ofState c.state ≠ .advance)
    (more : Control.ofState c.state ≠ .finish) :
    (c.step t).state = c.nextState t ∧ (c.step t).source = c.source ∧
      (c.step t).lookahead = c.lookahead := by
  cases control : Control.ofState c.state with
  | advance => exact absurd control steers
  | finish => exact absurd control more
  | startToken => rw [step_startToken control]; exact ⟨rfl, rfl, rfl⟩
  | endToken => rw [step_endToken control]; exact ⟨rfl, source_closed t c, lookahead_closed t c⟩
  | flush => rw [step_flush control]; exact ⟨rfl, rfl, rfl⟩

/-- More ticks than were needed change no answer. -/
theorem run_mono {m n : Nat} (le : m ≤ n) (h : c.run t skip m = (outcome, c'))
    (answered : outcome ≠ .stalled) : c.run t skip n = (outcome, c') := by
  induction m generalizing n c with
  | zero =>
      cases h
      exact absurd rfl answered
  | succ m ih =>
      obtain ⟨n, rfl⟩ : ∃ k, n = k + 1 := ⟨n - 1, by omega⟩
      have le : m ≤ n := by omega
      cases tick : c.tick t with
      | moved c₁ =>
          simp only [run, tick] at h ⊢
          exact ih le h
      | gave token c₁ =>
          simp only [run, tick] at h ⊢
          split at h
          · next passed =>
              rw [if_pos passed]
              exact ih le h
          · next kept => rw [if_neg kept, h]
      | ended c₁ | failed e c₁ =>
          simp only [run, tick] at h ⊢
          exact h

/-- A run is answered if it is answered after its first tick. -/
theorem run_succ_answered (h : ((c.step t).run t skip fuel).1 ≠ .stalled) :
    (c.run t skip (fuel + 1)).1 ≠ .stalled := by
  cases tick : c.tick t with
  | moved c₁ =>
      rw [step, tick] at h
      simp only [run, tick]
      exact h
  | gave token c₁ =>
      rw [step, tick] at h
      simp only [run, tick]
      split
      · exact h
      · simp
  | ended c₁ | failed e c₁ => simp [run, tick]

theorem Exhausted.run_eq (h : c.Exhausted) (more : 0 < fuel) :
    c.run t skip fuel = (.finished, c) := by
  obtain ⟨fuel, rfl⟩ : ∃ k, fuel = k + 1 := ⟨fuel - 1, by omega⟩
  simp only [run, h.tick_eq]

/-- In the last state, two pieces of text at most are left to be given out. -/
theorem run_finish_answered (h : Control.ofState c.state = .finish) (enough : 3 ≤ fuel) :
    (c.run t skip fuel).1 ≠ .stalled := by
  have gathered : ∀ {c : Cursor σ} {fuel : Nat},
      Control.ofState c.state = .finish → c.ready = none →
      2 ≤ fuel → (c.run t skip fuel).1 ≠ .stalled := by
    intro c fuel h nothing enough
    obtain ⟨fuel, rfl⟩ : ∃ k, fuel = k + 1 := ⟨fuel - 1, by omega⟩
    apply run_succ_answered
    have exhausted : (c.step t).Exhausted := by
      rw [step_finish h]
      simp only [nothing]
      exact ⟨h, rfl, rfl⟩
    rw [exhausted.run_eq (by omega)]
    exact Outcome.noConfusion
  cases kept : c.ready with
  | none => exact gathered h kept (by omega)
  | some p =>
      obtain ⟨fuel, rfl⟩ : ∃ k, fuel = k + 1 := ⟨fuel - 1, by omega⟩
      apply run_succ_answered
      have after : c.step t = { c with ready := none } := by
        rw [step_finish h]
        simp only [kept]
      rw [after]
      exact gathered h rfl (by omega)

/-- At the end of the stream the steering states lead to the last state. -/
theorem run_end_answered (sound : t.Sound) (fit : c.Fit t) (ends : c.lookahead = none) {n : Nat}
    (steers : Control.ofState c.state ≠ .advance)
    (settles : Tables.settles t.rows (t.alphabet.symbolOf none) n c.state = true)
    (enough : n + 3 ≤ fuel) : (c.run t skip fuel).1 ≠ .stalled := by
  induction n generalizing c fuel with
  | zero =>
      by_cases finish : Control.ofState c.state = .finish
      · exact run_finish_answered finish (by omega)
      · rw [Tables.not_settles_zero finish steers] at settles
        cases settles
  | succ n ih =>
      by_cases finish : Control.ofState c.state = .finish
      · exact run_finish_answered finish (by omega)
      · obtain ⟨fuel, rfl⟩ : ∃ k, fuel = k + 1 := ⟨fuel - 1, by omega⟩
        obtain ⟨state, -, lookahead⟩ := step_of_steers (t := t) steers finish
        have following : c.nextState t = t.next c.state (t.alphabet.symbolOf none) := by
          rw [nextState, ends]
        apply run_succ_answered
        refine ih (fit.step sound) (lookahead.trans ends) ?_ ?_ (by omega)
        · rw [state, following]
          exact sound.next_end fit.state_lt
        · rw [state, following]
          exact Tables.settles_succ finish settles steers

/-- A bound on the ticks that still read. -/
def weight (c : Cursor σ) : Nat :=
  match c.lookahead with
  | none => 0
  | some _ => CharSource.remaining c.source + 1

/-- A tick that reads lowers the weight. -/
theorem weight_step {ch : Char} {next : Option Char} {source : σ}
    (h : Control.ofState c.state = .advance) (look : c.lookahead = some ch)
    (read : CharSource.read c.source = (.ok next, source)) : (c.step t).weight < c.weight := by
  rw [step, tick_advance h look read]
  cases next with
  | none => simp [weight, look, Tick.cursor]
  | some following =>
      have less := CharSource.remaining_lt read
      simp only [weight, look, Tick.cursor]
      omega

/-- Without a character to come, the state may still have to be left. -/
theorem run_last_answered (sound : t.Sound) (fit : c.Fit t) (ends : c.lookahead = none) {n : Nat}
    (settles : Tables.settles t.rows (t.alphabet.symbolOf none) n c.state = true)
    (enough : n + 7 ≤ fuel) : (c.run t skip fuel).1 ≠ .stalled := by
  by_cases reads : Control.ofState c.state = .advance
  · obtain ⟨fuel, rfl⟩ : ∃ k, fuel = k + 1 := ⟨fuel - 1, by omega⟩
    have after : c.step t = { c with state := c.nextState t } := by
      rw [step, tick_advance_none reads ends, Tick.cursor]
    have following : c.nextState t = t.next c.state (t.alphabet.symbolOf none) := by
      rw [nextState, ends]
    apply run_succ_answered
    refine run_end_answered sound (fit.step sound) ?_ ?_ (sound.settles_three none _) (by omega)
    · rw [after, ends]
    · rw [after]
      exact following ▸ sound.next_end fit.state_lt
  · exact run_end_answered sound fit ends reads settles (by omega)

/-- Four ticks for each character to come, and ten, suffice for an answer. The outer induction is on
what can still be read, the inner one on the steering ticks before the next read. -/
theorem run_answered (sound : t.Sound) (fit : c.Fit t) {m n : Nat} (le : c.weight ≤ m)
    (settles : Tables.settles t.rows (t.alphabet.symbolOf c.lookahead) n c.state = true)
    (enough : 4 * m + n + 7 ≤ fuel) : (c.run t skip fuel).1 ≠ .stalled := by
  induction m generalizing c n fuel with
  | zero =>
      cases look : c.lookahead with
      | none => exact run_last_answered sound fit look (look ▸ settles) (by omega)
      | some ch => simp [weight, look] at le
  | succ m outer =>
      have stops : ∀ {c : Cursor σ} {fuel : Nat}, c.Fit t → c.weight ≤ m + 1 →
          ¬ (Control.ofState c.state ≠ .advance ∧ Control.ofState c.state ≠ .finish) →
          4 * m + 11 ≤ fuel → (c.run t skip fuel).1 ≠ .stalled := by
        intro c fuel fit le stops enough
        obtain ⟨fuel, rfl⟩ : ∃ k, fuel = k + 1 := ⟨fuel - 1, by omega⟩
        by_cases reads : Control.ofState c.state = .advance
        · cases look : c.lookahead with
          | none => exact run_last_answered sound fit look (sound.settles_three none _) (by omega)
          | some ch =>
              rcases read : CharSource.read c.source with ⟨e | following, source⟩
              · simp [run, tick_advance_error reads look read]
              · have less := weight_step (t := t) reads look read
                apply run_succ_answered
                exact outer (fit.step sound) (by omega) (sound.settles_three _ _) (by omega)
        · have finish : Control.ofState c.state = .finish := by
            rw [not_and, not_not] at stops
            exact stops reads
          exact run_finish_answered finish (by omega)
      induction n generalizing c fuel with
      | zero =>
          by_cases steers : Control.ofState c.state ≠ .advance ∧ Control.ofState c.state ≠ .finish
          · rw [Tables.not_settles_zero steers.2 steers.1] at settles
            cases settles
          · exact stops fit le steers (by omega)
      | succ n inner =>
          by_cases steers : Control.ofState c.state ≠ .advance ∧ Control.ofState c.state ≠ .finish
          · obtain ⟨fuel, rfl⟩ : ∃ k, fuel = k + 1 := ⟨fuel - 1, by omega⟩
            obtain ⟨state, source, lookahead⟩ := step_of_steers (t := t) steers.1 steers.2
            have same : (c.step t).weight = c.weight := by rw [weight, weight, lookahead, source]
            have settled := Tables.settles_succ steers.2 settles steers.1
            apply run_succ_answered
            refine inner (fit.step sound) (by omega) ?_ (by omega)
            rw [state, lookahead]
            exact settled
          · exact stops fit le steers (by omega)

/-- Every request is answered, and no greater bound would change the answer. -/
theorem next_answered (sound : t.Sound) (fit : c.Fit t) (skip : Bool) :
    (c.next t skip).1 ≠ .stalled ∧ ∀ fuel, c.budget ≤ fuel → c.run t skip fuel = c.next t skip := by
  have light : c.weight ≤ CharSource.remaining c.source + 1 := by
    rw [weight]
    split <;> omega
  have answered : (c.next t skip).1 ≠ .stalled := by
    refine run_answered sound fit light (sound.settles_three _ _) ?_
    rw [budget]
    omega
  exact ⟨answered, fun fuel le => run_mono le rfl answered⟩

/-- Any number of ticks that suffices for an answer gives the answer. -/
theorem next_eq_of_run (sound : t.Sound) (fit : c.Fit t) (fuel : Nat)
    (h : c.run t skip fuel = (outcome, c')) (answered : outcome ≠ .stalled) :
    c.next t skip = (outcome, c') := by
  rw [← (next_answered sound fit skip).2 _ (Nat.le_max_left c.budget fuel)]
  exact run_mono (Nat.le_max_right _ _) h answered

/-- A run without omissions ticks until the first token, the end or the first failure. -/
theorem leads_of_run (h : c.run t false fuel = (outcome, c')) (answered : outcome ≠ .stalled) :
    Leads t c outcome.tokens c' := by
  induction fuel generalizing c with
  | zero =>
      cases h
      exact absurd rfl answered
  | succ fuel ih =>
      have first := Leads.tick t c
      cases tick : c.tick t with
      | moved c₁ =>
          rw [step, tick] at first
          simp only [run, tick] at h
          exact first.trans (ih h)
      | gave token c₁ =>
          rw [step, tick] at first
          simp only [run, tick, Bool.false_and, Bool.false_eq_true, if_false] at h
          cases h
          exact first
      | ended c₁ | failed e c₁ =>
          rw [step, tick] at first
          simp only [run, tick] at h
          cases h
          exact first

/-- An end that is reported is one. -/
theorem exhausted_of_run (sound : t.Sound) (fit : c.Fit t)
    (h : c.run t skip fuel = (.finished, c')) : c'.Exhausted := by
  induction fuel generalizing c with
  | zero => cases h
  | succ fuel ih =>
      have next := fit.step sound
      cases tick : c.tick t with
      | moved c₁ =>
          rw [step, tick] at next
          simp only [run, tick] at h
          exact ih next h
      | gave token c₁ =>
          rw [step, tick] at next
          simp only [run, tick] at h
          split at h
          · exact ih next h
          · cases h
      | ended c₁ =>
          simp only [run, tick] at h
          cases h
          exact fit.exhausted_of_tick sound tick
      | failed e c₁ =>
          simp only [run, tick] at h
          cases h

/-- The tokens that requests in a row are answered with, up to the end of the stream. -/
inductive Yields (t : Tables) (skip : Bool) : Cursor σ → List Token → Cursor σ → Prop
  | finished {c c' : Cursor σ} (h : c.next t skip = (.finished, c')) : Yields t skip c [] c'
  | token {c c₁ c' : Cursor σ} {token : Token} {tokens : List Token}
      (h : c.next t skip = (.token token, c₁)) (rest : Yields t skip c₁ tokens c') :
      Yields t skip c (token :: tokens) c'

namespace Yields

variable {tokens : List Token}

/-- A bound on the number of tokens that is not reached does not matter. -/
theorem tokens_eq (h : Yields t skip c tokens c') (enough : tokens.length < fuel) :
    c.tokens t skip fuel = tokens := by
  induction h generalizing fuel with
  | finished h =>
      obtain ⟨fuel, rfl⟩ : ∃ k, fuel = k + 1 := ⟨fuel - 1, by omega⟩
      simp only [Cursor.tokens, h]
  | token h rest ih =>
      obtain ⟨fuel, rfl⟩ : ∃ k, fuel = k + 1 := ⟨fuel - 1, by omega⟩
      rw [List.length_cons] at enough
      simp only [Cursor.tokens, h, ih (Nat.lt_of_succ_lt_succ enough)]

/-- What the next request is answered with decides about all that follow. -/
theorem of_next {c₁ : Cursor σ} (h : Yields t skip c₁ tokens c')
    (same : ∀ {outcome : Outcome} {c₂ : Cursor σ}, c₁.next t skip = (outcome, c₂) →
      outcome ≠ .stalled → c.next t skip = (outcome, c₂)) : Yields t skip c tokens c' := by
  cases h with
  | finished h => exact .finished (same h Outcome.noConfusion)
  | token h rest => exact .token (same h Outcome.noConfusion) rest

theorem exhausted (sound : t.Sound) (fit : c.Fit t) (h : Yields t false c tokens c') :
    c'.Exhausted := by
  induction h with
  | finished h => exact exhausted_of_run sound fit h
  | token h rest ih =>
      obtain ⟨n, rfl, -⟩ := leads_of_run h Outcome.noConfusion
      exact ih (fit.iterate sound n)

end Yields

section Text

variable {c c' : Cursor TextSource}

theorem read_text (source : TextSource) :
    CharSource.read source = (.ok source.rest.head?, TextSource.mk source.rest.tail) := by
  obtain ⟨rest⟩ := source
  cases rest <;> rfl

theorem run_text_ne_failed (e : ReadError) : (c.run t skip fuel).1 ≠ .failed e := by
  induction fuel generalizing c with
  | zero => exact Outcome.noConfusion
  | succ fuel ih =>
      cases tick : c.tick t with
      | moved c₁ =>
          simp only [run, tick]
          exact ih
      | gave token c₁ =>
          simp only [run, tick]
          split
          · exact ih
          · exact Outcome.noConfusion
      | ended c₁ =>
          simp only [run, tick]
          exact Outcome.noConfusion
      | failed e' c₁ =>
          obtain ⟨source, read⟩ := read_of_tick_failed tick
          rw [read_text] at read
          cases read

/-- A scan of a text is answered with a token or with its end. -/
theorem next_text (sound : t.Sound) (fit : c.Fit t) (skip : Bool) :
    (∃ token c', c.next t skip = (.token token, c')) ∨ ∃ c', c.next t skip = (.finished, c') := by
  have answered := (next_answered sound fit skip).1
  have read : ∀ e, (c.next t skip).1 ≠ .failed e := run_text_ne_failed
  rcases next : c.next t skip with ⟨outcome, c'⟩
  rw [next] at answered read
  cases outcome with
  | token token => exact .inl ⟨token, c', rfl⟩
  | finished => exact .inr ⟨c', rfl⟩
  | failed e => exact absurd rfl (read e)
  | stalled => exact absurd rfl answered

/-- The tokens of a text are all that ticks give out, unless the bound on their number is
reached. -/
theorem leads_of_tokens (sound : t.Sound) (fit : c.Fit t) (fuel : Nat) :
    ∃ c', Leads t c (c.tokens t false fuel) c' ∧ ((c.tokens t false fuel).length = fuel ∨
      Yields t false c (c.tokens t false fuel) c') := by
  induction fuel generalizing c with
  | zero => exact ⟨c, .refl t c, .inl rfl⟩
  | succ fuel ih =>
      obtain ⟨token, c₁, next⟩ | ⟨c₁, next⟩ := next_text sound fit false
      · have first := leads_of_run next Outcome.noConfusion
        have fit₁ : c₁.Fit t := by
          obtain ⟨m, rfl, -⟩ := first
          exact fit.iterate sound m
        obtain ⟨c', more, ends⟩ := ih fit₁
        have tokens : c.tokens t false (fuel + 1) = token :: c₁.tokens t false fuel := by
          simp only [Cursor.tokens, next]
        rw [tokens, List.length_cons, Nat.succ_inj]
        exact ⟨c', first.trans more, ends.imp_right (.token next)⟩
      · have tokens : c.tokens t false (fuel + 1) = [] := by
          simp only [Cursor.tokens, next]
        rw [tokens]
        exact ⟨c₁, leads_of_run next Outcome.noConfusion, .inr (.finished next)⟩

/-- Ticks that lead to the end of a text have given out what requests are answered with. -/
theorem Leads.yields (sound : t.Sound) (fit : c.Fit t) {tokens : List Token}
    (leads : Leads t c tokens c') (ends : c'.Exhausted) : Yields t false c tokens c' := by
  obtain ⟨n, rfl, rfl⟩ := leads
  induction n generalizing c with
  | zero => exact .finished (ends.run_eq (by rw [budget]; omega))
  | succ n ih =>
      have later := ih (fit.step sound) ends
      rw [Function.iterate_succ_apply] at ends ⊢
      rw [given]
      cases tick : c.tick t with
      | moved c₁ =>
          rw [step, tick] at later ⊢
          refine later.of_next fun h answered => ?_
          refine next_eq_of_run sound fit (c₁.budget + 1) ?_ answered
          simp only [run, tick]
          exact h
      | gave token c₁ =>
          rw [step, tick] at later ⊢
          refine .token (next_eq_of_run sound fit 1 ?_ Outcome.noConfusion) later
          simp only [run, tick, Bool.false_and, Bool.false_eq_true, if_false, Tick.cursor]
      | ended c₁ =>
          have stays := (fit.exhausted_of_tick sound tick).iterate_eq (t := t) n
          rw [step, tick, Tick.cursor, stays.1, stays.2]
          refine .finished (next_eq_of_run sound fit 1 ?_ Outcome.noConfusion)
          simp only [run, tick]
      | failed e c₁ =>
          obtain ⟨source, read⟩ := read_of_tick_failed tick
          rw [read_text] at read
          cases read

end Text

end Cursor

end TableLexer
