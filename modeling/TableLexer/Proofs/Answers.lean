import TableLexer.Proofs.Safety

/-!
# Answers to requests in a row

A source may fail to read and still go on afterwards. The requests to a scan are then answered with
tokens and failures in turn. What they are answered with up to the end of the stream is what the
ticks bring on the way there, less the separators that are to be left out: no tick is made twice and
none is forgotten, wherever the bounds on the ticks of single requests lie.
-/

namespace TableLexer

/-- Whether a scan that may leave separators out gives the token. -/
def Token.shown (skip : Bool) (token : Token) : Bool := !(skip && token.kind = .separator)

namespace Outcome

/-- The token that is given, if one is. -/
def token? : Outcome → Option Token
  | .token t => some t
  | .finished | .failed _ | .stalled => none

/-- The failure that is reported, if one is. -/
def failure? : Outcome → Option ReadError
  | .failed e => some e
  | .token _ | .finished | .stalled => none

/-- Whether a scan that may leave separators out answers so. -/
def shown (skip : Bool) : Outcome → Bool
  | .token t => t.shown skip
  | .finished | .failed _ | .stalled => true

theorem filter_shown_map_token (skip : Bool) (tokens : List Token) :
    (tokens.map token).filter (shown skip) = (tokens.filter (Token.shown skip)).map token := by
  rw [List.filter_map]
  rfl

/-- The tokens that are left of the answers. -/
theorem filterMap_token?_filter (skip : Bool) (outcomes : List Outcome) :
    (outcomes.filter (shown skip)).filterMap token? =
      (outcomes.filterMap token?).filter (Token.shown skip) := by
  induction outcomes with
  | nil => rfl
  | cons outcome outcomes ih =>
      cases outcome with
      | token t =>
          by_cases shows : t.shown skip = true <;> simp [shown, token?, shows, ih]
      | finished | failed e | stalled =>
          simp [List.filter_cons, List.filterMap_cons, shown, token?, ih]

/-- No failure is left out. -/
theorem filterMap_failure?_filter (skip : Bool) (outcomes : List Outcome) :
    (outcomes.filter (shown skip)).filterMap failure? = outcomes.filterMap failure? := by
  induction outcomes with
  | nil => rfl
  | cons outcome outcomes ih =>
      cases outcome with
      | token t =>
          by_cases shows : t.shown skip = true <;>
            simp [List.filterMap_cons, shown, failure?, shows, ih]
      | finished | failed e | stalled =>
          simp [List.filter_cons, List.filterMap_cons, shown, failure?, ih]

end Outcome

/-- What a tick leaves a request to answer with, if it does not merely move on or end. -/
def Tick.outcome? {σ : Type} : Tick σ → Option Outcome
  | gave token _ => some (.token token)
  | failed e _ => some (.failed e)
  | moved _ | ended _ => none

namespace Cursor

variable {σ : Type} [CharSource σ] {t : Tables} {skip : Bool} {c c' : Cursor σ}
variable {outcomes more : List Outcome}

/-- Only a tick that reads can fail. -/
theorem advance_of_tick_failed {e : ReadError} (h : c.tick t = .failed e c') :
    Control.ofState c.state = .advance := by
  cases control : Control.ofState c.state with
  | advance => rfl
  | startToken => simp [tick_startToken control] at h
  | endToken =>
      rw [tick_endToken control] at h
      split at h
      · exact absurd h give_ne_failed
      · cases h
  | flush =>
      rw [tick_flush control] at h
      split at h <;> cases h
  | finish =>
      rw [tick_finish control] at h
      split at h <;> exact absurd h give_ne_failed

/-- What does not fail gives its token. -/
theorem outcome?_of_not_failed (h : ∀ e c', c.tick t ≠ .failed e c') :
    (c.tick t).outcome? = (c.tick t).token?.map .token := by
  cases tick : c.tick t with
  | failed e c' => exact absurd tick (h e c')
  | moved c' | gave token c' | ended c' => rfl

/-- Ticks lead from one cursor to another and bring some outcomes on the way. -/
inductive Brings (t : Tables) : Cursor σ → List Outcome → Cursor σ → Prop
  | refl (c : Cursor σ) : Brings t c [] c
  | tick {c c' : Cursor σ} {outcomes : List Outcome} (rest : Brings t (c.step t) outcomes c') :
      Brings t c ((c.tick t).outcome?.toList ++ outcomes) c'

namespace Brings

theorem trans {c₁ c₂ c₃ : Cursor σ} (first : Brings t c₁ outcomes c₂)
    (second : Brings t c₂ more c₃) : Brings t c₁ (outcomes ++ more) c₃ := by
  induction first with
  | refl => exact second
  | tick rest ih =>
      rw [List.append_assoc]
      exact .tick (ih second)

theorem one (t : Tables) (c : Cursor σ) : Brings t c (c.tick t).outcome?.toList (c.step t) := by
  simpa using Brings.tick (.refl (c.step t))

/-- A tick that gives no token of its own merely leads on. -/
theorem of_steers (steers : Control.ofState c.state ≠ .advance) :
    Brings t c ((c.tick t).token?.toList.map .token) (c.step t) := by
  have never : ∀ e c', c.tick t ≠ .failed e c' := fun e c' failed =>
    steers (advance_of_tick_failed failed)
  have first := Brings.one t c
  rw [outcome?_of_not_failed never] at first
  cases tick : (c.tick t).token? <;> simpa [tick] using first

/-- Over a text, the tokens that ticks give out are all that they bring. -/
theorem of_leads {c c' : Cursor TextSource} {tokens : List Token} (leads : Leads t c tokens c') :
    Brings t c (tokens.map .token) c' := by
  obtain ⟨n, rfl, rfl⟩ := leads
  induction n generalizing c with
  | zero => exact .refl c
  | succ n ih =>
      have never : ∀ e c', c.tick t ≠ .failed e c' := by
        intro e c' failed
        obtain ⟨source, read⟩ := read_of_tick_failed failed
        rw [read_text] at read
        cases read
      have first := Brings.one t c
      rw [outcome?_of_not_failed never] at first
      rw [given, List.map_append]
      refine .trans ?_ ih
      cases tick : (c.tick t).token? <;> simpa [tick] using first

end Brings

/-- The answers to requests in a row, up to the end of the stream. -/
inductive Answers (t : Tables) (skip : Bool) : Cursor σ → List Outcome → Cursor σ → Prop
  | finished {c c' : Cursor σ} (h : c.next t skip = (.finished, c')) : Answers t skip c [] c'
  | answer {c c₁ c' : Cursor σ} {outcome : Outcome} {outcomes : List Outcome}
      (h : c.next t skip = (outcome, c₁)) (answered : outcome ≠ .stalled)
      (goes_on : outcome ≠ .finished) (rest : Answers t skip c₁ outcomes c') :
      Answers t skip c (outcome :: outcomes) c'

namespace Answers

/-- What the next request is answered with decides about all that follow. -/
theorem of_next {c₁ : Cursor σ} (h : Answers t skip c₁ outcomes c')
    (same : ∀ {outcome : Outcome} {c₂ : Cursor σ}, c₁.next t skip = (outcome, c₂) →
      outcome ≠ .stalled → c.next t skip = (outcome, c₂)) : Answers t skip c outcomes c' := by
  cases h with
  | finished h => exact .finished (same h Outcome.noConfusion)
  | answer h answered goes_on rest => exact .answer (same h answered) answered goes_on rest

/-- The tokens up to the end of the stream, where reading never fails. -/
theorem tokens_eq {tokens : List Token} {fuel : Nat}
    (h : Answers t skip c (tokens.map .token) c') (enough : tokens.length < fuel) :
    c.tokens t skip fuel = tokens := by
  induction tokens generalizing c fuel with
  | nil =>
      obtain ⟨fuel, rfl⟩ : ∃ k, fuel = k + 1 := ⟨fuel - 1, by omega⟩
      cases h with
      | finished h => simp only [Cursor.tokens, h]
  | cons token tokens ih =>
      obtain ⟨fuel, rfl⟩ : ∃ k, fuel = k + 1 := ⟨fuel - 1, by omega⟩
      cases h with
      | answer h answered goes_on rest =>
          simp only [Cursor.tokens, h, ih rest (Nat.lt_of_succ_lt_succ enough)]

end Answers

/-- A tick that leaves nothing to answer with, or nothing that is shown, hands the request over to
the next tick. -/
theorem next_eq_next_step (sound : t.Sound) (fit : c.Fit t)
    (hidden : ∀ outcome ∈ (c.tick t).outcome?, outcome.shown skip = false) :
    c.next t skip = (c.step t).next t skip := by
  have answered := (next_answered sound (fit.step sound) skip).1
  cases tick : c.tick t with
  | moved c₁ =>
      rw [step, tick, Tick.cursor] at answered ⊢
      apply next_eq_of_run sound fit (c₁.budget + 1) _ answered
      simp only [run, tick]
      rfl
  | gave token c₁ =>
      have omitted : (skip && token.kind = .separator) = true := by
        have unseen := hidden (.token token) (by simp [tick, Tick.outcome?])
        rwa [Outcome.shown, Token.shown, Bool.not_eq_false'] at unseen
      rw [step, tick, Tick.cursor] at answered ⊢
      apply next_eq_of_run sound fit (c₁.budget + 1) _ answered
      simp only [run, tick, omitted, if_true]
      rfl
  | ended c₁ =>
      have exhausted := fit.exhausted_of_tick sound tick
      have last : c₁.next t skip = (.finished, c₁) := exhausted.run_eq (by rw [budget]; omega)
      rw [step, tick, Tick.cursor, last]
      apply next_eq_of_run sound fit 1 _ Outcome.noConfusion
      simp only [run, tick]
  | failed e c₁ =>
      have unseen := hidden (.failed e) (by simp [tick, Tick.outcome?])
      cases unseen

/-- A tick that leaves something to answer with answers the request, if that is shown. -/
theorem next_eq_of_outcome {outcome : Outcome} (sound : t.Sound) (fit : c.Fit t)
    (brought : (c.tick t).outcome? = some outcome) (shows : outcome.shown skip = true) :
    c.next t skip = (outcome, c.step t) := by
  cases tick : c.tick t with
  | moved c₁ | ended c₁ =>
      rw [tick] at brought
      cases brought
  | gave token c₁ =>
      rw [tick] at brought
      cases brought
      rw [Outcome.shown, Token.shown, Bool.not_eq_true'] at shows
      rw [step, tick]
      apply next_eq_of_run sound fit 1 _ Outcome.noConfusion
      simp [run, tick, shows, Tick.cursor]
  | failed e c₁ =>
      rw [tick] at brought
      cases brought
      rw [step, tick]
      apply next_eq_of_run sound fit 1 _ Outcome.noConfusion
      simp only [run, tick, Tick.cursor]

/-- A tick brings neither the end of the stream nor an endless run. -/
theorem goes_on_of_outcome {outcome : Outcome} (brought : (c.tick t).outcome? = some outcome) :
    outcome ≠ .stalled ∧ outcome ≠ .finished := by
  cases tick : c.tick t with
  | moved c₁ | ended c₁ =>
      rw [tick] at brought
      cases brought
  | gave token c₁ | failed e c₁ =>
      rw [tick] at brought
      cases brought
      exact ⟨Outcome.noConfusion, Outcome.noConfusion⟩

/-- A request is answered with the first of what the ticks bring that is shown, and what comes
behind it is left for later requests, whatever is skipped then. -/
theorem Brings.next (sound : t.Sound) (fit : c.Fit t) (brings : Brings t c outcomes c')
    (ends : c'.Exhausted) (skip : Bool) :
    (c.next t skip = (.finished, c') ∧ ∀ outcome ∈ outcomes, outcome.shown skip = false) ∨
      ∃ passed outcome later c₁, outcomes = passed ++ outcome :: later ∧
        (∀ outcome ∈ passed, outcome.shown skip = false) ∧ outcome.shown skip = true ∧
        c.next t skip = (outcome, c₁) ∧ Brings t c₁ later c' := by
  induction brings with
  | refl c => exact .inl ⟨ends.run_eq (by rw [budget]; omega), by simp⟩
  | @tick c c' outcomes rest ih =>
      cases brought : (c.tick t).outcome? with
      | none =>
          rw [next_eq_next_step sound fit (by simp [brought])]
          exact ih (fit.step sound) ends
      | some first =>
          cases shows : first.shown skip with
          | true =>
              exact .inr ⟨[], first, outcomes, c.step t, rfl, by simp, shows,
                next_eq_of_outcome sound fit brought shows, rest⟩
          | false =>
              rw [next_eq_next_step sound fit (by simp [brought, shows])]
              obtain ⟨finished, hidden⟩ | ⟨passed, outcome, later, c₁, rfl, hidden, found⟩ :=
                ih (fit.step sound) ends
              · exact .inl ⟨finished, by simpa [shows] using hidden⟩
              · exact .inr ⟨first :: passed, outcome, later, c₁, rfl,
                  by simpa [shows] using hidden, found⟩

/-- Requests are answered with what the ticks bring, less the separators left out. The induction is
on the ticks: each either answers a request or leaves the request to the next tick. -/
theorem Brings.answers (sound : t.Sound) (fit : c.Fit t) (brings : Brings t c outcomes c')
    (ends : c'.Exhausted) (skip : Bool) :
    Answers t skip c (outcomes.filter (Outcome.shown skip)) c' := by
  induction brings with
  | refl c => exact .finished (ends.run_eq (by rw [budget]; omega))
  | @tick c c' outcomes rest ih =>
      have later := ih (fit.step sound) ends
      cases brought : (c.tick t).outcome? with
      | none =>
          have same : c.next t skip = (c.step t).next t skip :=
            next_eq_next_step sound fit (by simp [brought])
          exact later.of_next fun h _ => same.trans h
      | some first =>
          rw [Option.toList_some, List.singleton_append, List.filter_cons]
          cases shows : first.shown skip with
          | true =>
              obtain ⟨answered, goes_on⟩ := goes_on_of_outcome brought
              exact .answer (next_eq_of_outcome sound fit brought shows) answered goes_on later
          | false =>
              have same : c.next t skip = (c.step t).next t skip :=
                next_eq_next_step sound fit (by simp [brought, shows])
              exact later.of_next fun h _ => same.trans h

end Cursor

/-- The answers of a session are those of its cursor. -/
theorem Session.answers_eq {σ : Type} [CharSource σ] {s : Session σ} {c c' : Cursor σ}
    {outcomes : List Outcome} (bound : s.cursor = some c)
    (h : c.Answers s.tables s.skipSeparators outcomes c') {count : Nat}
    (enough : outcomes.length < count) : s.answers count = outcomes := by
  induction outcomes generalizing s c count with
  | nil =>
      obtain ⟨count, rfl⟩ : ∃ k, count = k + 1 := ⟨count - 1, by omega⟩
      cases h with
      | finished h => simp [Session.answers, Session.next, bound, h]
  | cons outcome outcomes ih =>
      obtain ⟨count, rfl⟩ : ∃ k, count = k + 1 := ⟨count - 1, by omega⟩
      rw [List.length_cons] at enough
      cases h with
      | answer h answered goes_on rest =>
          obtain ⟨first, cursor, tables, skip⟩ := next_of_cursor bound
          rw [h] at first cursor
          have later := ih cursor (by rwa [tables, skip]) (Nat.lt_of_succ_lt_succ enough)
          rcases next : s.next with ⟨o, s'⟩
          rw [next] at first later
          subst first
          cases o with
          | finished => exact absurd rfl goes_on
          | stalled => exact absurd rfl answered
          | token token | failed e => simp only [Session.answers, next, later]

/-- A scan that reaches the end of a text. -/
theorem Tables.Sound.exists_scan {t : Tables} (sound : t.Sound) (text : String) :
    ∃ c : Cursor TextSource, Cursor.start (TextSource.ofString text) = .ok c ∧ c.Safe t ∧
      Cursor.Ledger t text.toList [] [] [] [] 0 c ∧
      ∃ n, Cursor.given t n c = t.tokenize text false ∧
        ((Cursor.step t)^[n] c).Exhausted ∧ (t.tokenize text false).length ≤ text.length := by
  obtain ⟨c, start, ledger⟩ := Cursor.Ledger.start t text
  have safe : c.Safe t := .start sound start
  have tokens : t.tokenize text false = c.tokens t false (text.length + 1) := by
    rw [Tables.tokenize, start]
  obtain ⟨_, ⟨n, rfl, given⟩, ends⟩ :=
    Cursor.leads_of_tokens sound safe.toFit (text.length + 1)
  rw [← tokens] at given ends
  obtain ⟨spans, kept, gathered, read, final⟩ := ledger.iterate sound safe n
  rw [List.nil_append, given] at final
  have few := final.length_given_le
  rw [String.length_toList] at few
  have yields := ends.resolve_left (by omega)
  exact ⟨c, start, safe, ledger, n, given, yields.exhausted sound safe.toFit, few⟩

/-- To leave the separators out of a scan is to leave them out of its tokens. -/
theorem Tables.Sound.tokenize_skip {t : Tables} (sound : t.Sound) (text : String) (skip : Bool) :
    t.tokenize text skip = (t.tokenize text false).filter (Token.shown skip) := by
  obtain ⟨c, start, safe, -, n, given, ends, few⟩ := sound.exists_scan text
  have brings : c.Brings t ((t.tokenize text false).map .token) ((Cursor.step t)^[n] c) :=
    .of_leads ⟨n, rfl, given⟩
  have answers := brings.answers sound safe.toFit ends skip
  rw [Outcome.filter_shown_map_token] at answers
  have fewer := List.length_filter_le (Token.shown skip) (t.tokenize text false)
  rw [Tables.tokenize, start]
  exact answers.tokens_eq (by omega)

end TableLexer
