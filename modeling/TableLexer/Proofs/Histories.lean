import TableLexer.Proofs.Schedules

/-!
# Histories of a session

A session may be bound, asked, set and unbound in any order, and reading and closing may fail at any
point. What it is bound to and what it remembers is decided by its history, which lists the requests
and their answers, the latest first. A successful binding wipes out everything before it but the
setting for separators: the session is then the same as a fresh one.
-/

namespace TableLexer

/-- What a session may be asked. -/
inductive Request (σ : Type) where
  | bind (source : σ)
  | unbind
  | turn (turn : Turn)

/-- A request together with its answer. -/
inductive Exchange (σ : Type) where
  | bind (source : σ) (answer : Except ReadError Unit)
  | unbind (answer : Except ReadError (Option σ))
  | next (answer : Outcome)
  | skipSeparators (on : Bool)

/-- Whether a request for a token succeeds: with a token or with the end of the stream. -/
def Outcome.succeeds : Outcome → Bool
  | .token _ | .finished => true
  | .failed _ | .stalled => false

namespace Exchange

variable {σ : Type}

/-- Whether it was asked to bind a source or to give one up. -/
def attaches : Exchange σ → Bool
  | bind _ _ | unbind _ => true
  | next _ | skipSeparators _ => false

/-- Whether a source was bound successfully. -/
def binds : Exchange σ → Bool
  | bind _ (.ok ()) => true
  | bind _ (.error _) | unbind _ | next _ | skipSeparators _ => false

/-- Whether a source is bound after a history: the last attempt to bind one or to give one up was a
binding that succeeded. -/
def boundAfter (past : List (Exchange σ)) : Bool := (past.find? attaches).any binds

/-- What a history makes the current token: the answer to the latest request that succeeded while a
source was bound, but none from before the latest successful binding. -/
def latest? : List (Exchange σ) → Option Token
  | [] => none
  | bind _ (.ok ()) :: _ => none
  | next answer :: past =>
    if boundAfter past && answer.succeeds then answer.token? else latest? past
  | bind _ (.error _) :: past | unbind _ :: past | skipSeparators _ :: past => latest? past

end Exchange

namespace Session

variable {σ : Type} [CharSource σ]

/-- Meets a request. -/
def meet (s : Session σ) : Request σ → Exchange σ × Session σ
  | .bind source => (.bind source (s.bind source).1, (s.bind source).2)
  | .unbind => (.unbind s.unbind.1, s.unbind.2)
  | .turn .next => (.next s.next.1, s.next.2)
  | .turn (.skipSeparators on) => (.skipSeparators on, s.setSkipSeparators on)

/-- Meets requests in a row. The history is listed with the latest exchange first. -/
def live (s : Session σ) (requests : List (Request σ)) : List (Exchange σ) × Session σ :=
  requests.foldl (fun (past, s) request => ((s.meet request).1 :: past, (s.meet request).2)) ([], s)

section Requests

variable {s : Session σ} {source : σ}

/-- A session that gives up its source keeps everything else, also if closing fails. -/
theorem unbind_snd (s : Session σ) : s.unbind.2 = { s with cursor := none } := by
  obtain ⟨tables, skip, cursor, current⟩ := s
  cases cursor with
  | none => rfl
  | some c =>
      rcases closed : CharSource.close c.source with ⟨_ | _, source⟩
      · simp only [unbind, closed]
      · simp only [unbind, closed]

/-- A binding fails if the source bound before cannot be closed or else the new one cannot be
read. -/
theorem bind_eq_error_iff {e : ReadError} : (s.bind source).1 = .error e ↔
    s.unbind.1 = .error e ∨
      (∃ old, s.unbind.1 = .ok old) ∧ (CharSource.read source).1 = .error e := by
  rcases closed : s.unbind with ⟨e' | old, s'⟩
  · simp [Session.bind, closed]
  · rcases read : CharSource.read source with ⟨e' | first, rest⟩
    · simp [Session.bind, closed, Cursor.start, read]
    · simp [Session.bind, closed, Cursor.start, read]

/-- A binding that fails leaves the session without a source and otherwise as it was. -/
theorem bind_of_error {e : ReadError} (failed : (s.bind source).1 = .error e) :
    (s.bind source).2 = { s with cursor := none } := by
  have left := unbind_snd s
  rcases closed : s.unbind with ⟨e' | old, s'⟩
  · rw [closed] at left
    simpa only [Session.bind, closed] using left
  · rw [closed] at left
    cases start : Cursor.start source with
    | error e' => simpa only [Session.bind, closed, start] using left
    | ok c => simp [Session.bind, closed, start] at failed

/-- A binding that succeeds leaves nothing of what was before it but the setting. -/
theorem bind_of_ok (bound : (s.bind source).1 = .ok ()) : ∃ c, Cursor.start source = .ok c ∧
    (s.bind source).2 = ⟨s.tables, s.skipSeparators, some c, none⟩ := by
  have left := unbind_snd s
  rcases closed : s.unbind with ⟨e' | old, s'⟩
  · simp [Session.bind, closed] at bound
  · rw [closed] at left
    cases start : Cursor.start source with
    | error e' => simp [Session.bind, closed, start] at bound
    | ok c =>
        refine ⟨c, rfl, ?_⟩
        simp only [Session.bind, closed, start]
        rw [show s' = { s with cursor := none } from left]

theorem next_of_unbound (unbound : s.isBound = false) : s.next = (.finished, s) := by
  rw [isBound, Option.isSome_eq_false_iff, Option.isNone_iff_eq_none] at unbound
  simp only [Session.next, unbound]

theorem isBound_next (s : Session σ) : s.next.2.isBound = s.isBound := by
  cases bound : s.cursor with
  | none => simp only [Session.next, bound]
  | some c =>
      obtain ⟨-, cursor, -, -⟩ := next_of_cursor bound
      simp only [isBound, cursor, bound, Option.isSome_some]

/-- A request that succeeds with a source is remembered, and no other. -/
theorem current_next (s : Session σ) : s.next.2.current =
    if s.isBound && s.next.1.succeeds then s.next.1.token? else s.current := by
  cases bound : s.cursor with
  | none => simp [Session.next, isBound, bound]
  | some c =>
      rcases asked : c.next s.tables s.skipSeparators with ⟨outcome, c'⟩
      cases outcome <;>
        simp [Session.next, isBound, bound, asked, Outcome.succeeds, Outcome.token?]

end Requests

/-- A session over sound tables that is what its history makes of it. -/
structure Follows (t : Tables) (past : List (Exchange σ)) (s : Session σ) : Prop where
  tables_eq : s.tables = t
  fit : s.Fit
  isBound_eq : s.isBound = Exchange.boundAfter past
  current_eq : s.current = Exchange.latest? past

namespace Follows

variable {t : Tables} {past : List (Exchange σ)} {s : Session σ}

omit [CharSource σ] in
theorem start (sound : t.Sound) (skip : Bool) : (ofTables t skip : Session σ).Follows t [] :=
  ⟨rfl, ⟨sound, by simp [ofTables]⟩, rfl, rfl⟩

omit [CharSource σ] in
/-- A session without a source, after an attempt to bind one or to give one up. -/
theorem without_source (h : s.Follows t past) {exchange : Exchange σ}
    (unbound : Exchange.boundAfter (exchange :: past) = false)
    (keeps : Exchange.latest? (exchange :: past) = Exchange.latest? past) :
    ({ s with cursor := none } : Session σ).Follows t (exchange :: past) :=
  ⟨h.tables_eq, ⟨h.fit.sound, by simp⟩, unbound.symm, keeps ▸ h.current_eq⟩

theorem bind (h : s.Follows t past) (source : σ) :
    (s.bind source).2.Follows t (.bind source (s.bind source).1 :: past) := by
  cases answer : (s.bind source).1 with
  | error e =>
      rw [bind_of_error answer]
      exact h.without_source rfl rfl
  | ok _ =>
      obtain ⟨c, start, after⟩ := bind_of_ok answer
      rw [after]
      refine ⟨h.tables_eq, ⟨h.fit.sound, fun c' mem => ?_⟩, rfl, rfl⟩
      cases mem
      exact .start h.fit.sound start

theorem unbind (h : s.Follows t past) : s.unbind.2.Follows t (.unbind s.unbind.1 :: past) := by
  rw [unbind_snd]
  exact h.without_source rfl rfl

theorem next (h : s.Follows t past) : s.next.2.Follows t (.next s.next.1 :: past) := by
  have tables : s.next.2.tables = s.tables := by
    cases bound : s.cursor with
    | none => simp only [Session.next, bound]
    | some c => exact (next_of_cursor bound).2.2.1
  refine ⟨tables.trans h.tables_eq, h.fit.next, ?_, ?_⟩
  · rw [isBound_next, h.isBound_eq]
    rfl
  · rw [current_next, h.isBound_eq, h.current_eq]
    rfl

omit [CharSource σ] in
theorem setSkipSeparators (h : s.Follows t past) (on : Bool) :
    (s.setSkipSeparators on).Follows t (.skipSeparators on :: past) :=
  ⟨h.tables_eq, ⟨h.fit.sound, h.fit.cursor⟩, h.isBound_eq, h.current_eq⟩

/-- Every request keeps the session in step with its history. -/
theorem meet (h : s.Follows t past) (request : Request σ) :
    (s.meet request).2.Follows t ((s.meet request).1 :: past) := by
  cases request with
  | bind source => exact h.bind source
  | unbind => exact h.unbind
  | turn turn =>
      cases turn with
      | next => exact h.next
      | skipSeparators on => exact h.setSkipSeparators on

/-- A fresh session stays in step with its history, whatever it is asked. -/
theorem live (sound : t.Sound) (skip : Bool) (requests : List (Request σ)) :
    ((ofTables t skip).live requests).2.Follows t ((ofTables t skip).live requests).1 := by
  induction requests using List.reverseRecOn with
  | nil => exact .start sound skip
  | append_singleton requests request ih =>
      rw [Session.live, List.foldl_append]
      exact ih.meet request

/-- Every request for a token is answered. -/
theorem answered (h : s.Follows t past) : s.next.1 ≠ .stalled := by
  cases bound : s.cursor with
  | none => simp [Session.next, bound]
  | some c =>
      rw [(next_of_cursor bound).1]
      exact (Cursor.next_answered h.fit.sound (h.fit.cursor c bound) _).1

end Follows

end Session

/-- A session is decided by its history, whatever it was asked and wherever closing and reading
failed. It has a source exactly if the last attempt to bind one or to give one up was a successful
binding; without a source a request is answered with the end of the stream and changes nothing. The
current token is the answer to the latest successful request since the latest successful binding;
requests that fail, bindings that fail and giving up the source leave it. After a successful
binding, the session answers as a fresh one with the same tables and setting that is bound to the
source. -/
theorem session_follows_history {t : Tables} (admitted : t.Admitted) {σ : Type} [CharSource σ]
    (skip : Bool) (requests : List (Request σ)) :
    let past := ((Session.ofTables t skip).live requests).1
    let s := ((Session.ofTables t skip).live requests).2
    (s.isBound = Exchange.boundAfter past ∧
      s.unbind.2.isBound = false ∧
      (∀ source e, (s.bind source).1 = .error e ↔ s.unbind.1 = .error e ∨
        (∃ old, s.unbind.1 = .ok old) ∧ (CharSource.read source).1 = .error e) ∧
      (∀ source e, (s.bind source).1 = .error e → (s.bind source).2.isBound = false) ∧
      (s.isBound = false → s.next = (.finished, s)) ∧ s.next.1 ≠ .stalled) ∧
    (s.current = Exchange.latest? past ∧
      s.unbind.2.current = s.current ∧
      (∀ source e, (s.bind source).1 = .error e → (s.bind source).2.current = s.current) ∧
      ∀ e, s.next.1 = .failed e → s.next.2.current = s.current) ∧
    ∀ source, (s.bind source).1 = .ok () →
      ∃ fresh, (Session.ofTables t s.skipSeparators).bind source = (.ok (), fresh) ∧
        ∀ turns, (s.bind source).2.play turns = fresh.play turns := by
  intro past s
  have follows : s.Follows t past := .live admitted.sound skip requests
  refine ⟨⟨follows.isBound_eq, ?_, fun source e => Session.bind_eq_error_iff, ?_,
    Session.next_of_unbound, follows.answered⟩, ⟨follows.current_eq, ?_, ?_, ?_⟩, ?_⟩
  · rw [Session.unbind_snd]
    rfl
  · intro source e failed
    rw [Session.bind_of_error failed]
    rfl
  · rw [Session.unbind_snd]
  · intro source e failed
    rw [Session.bind_of_error failed]
  · intro e failed
    rw [Session.current_next, failed]
    simp [Outcome.succeeds]
  · intro source bound
    obtain ⟨c, start, after⟩ := Session.bind_of_ok bound
    refine ⟨⟨t, s.skipSeparators, some c, none⟩, ?_, fun turns => ?_⟩
    · simp [Session.bind, Session.unbind, Session.ofTables, start]
    · rw [after, follows.tables_eq]

/-- Closing the first source fails, so the second is not bound until it is tried again. -/
theorem session_follows_failed_close :
    let t := (RuleSet.ofDeclarations []).compile
    let first : ScriptSource := ⟨[.char 'a'], some (.device "stuck")⟩
    let second : ScriptSource := ⟨[.char 'b'], none⟩
    let s := ((Session.ofTables t true).live [.bind first, .turn .next, .bind second]).2
    t.Admitted ∧ s.isBound = false ∧ s.next.1 = .finished ∧
      s.current = some ⟨.word, "a", .start, StateId.word⟩ ∧ (s.bind second).1 = .ok () ∧
      ∃ fresh, (Session.ofTables t true).bind second = (.ok (), fresh) ∧
        ((s.bind second).2.play [.next, .next]).1 = (fresh.play [.next, .next]).1 := by
  intro t first second s
  have admitted : t.Admitted := .inl ⟨_, rfl⟩
  obtain ⟨⟨bound, -, -, -, idle, -⟩, ⟨current, -⟩, renewed⟩ :=
    session_follows_history admitted true [.bind first, .turn .next, .bind second]
  have unbound : s.isBound = false := bound.trans (by decide +kernel)
  have again : (s.bind second).1 = .ok () := rfl
  obtain ⟨fresh, start, same⟩ := renewed second again
  exact ⟨admitted, unbound, congrArg Prod.fst (idle unbound), current.trans (by decide +kernel),
    again, fresh, start, congrArg Prod.fst (same _)⟩

end TableLexer
