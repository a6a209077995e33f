import TableLexer.Proofs.Ledger
import TableLexer.Scan.Session

/-!
# Scanning with checked tables is safe

Whatever passes the check of stored tables can be scanned with, compiled from rules or not. Every
look at the tables finds an entry, no state reads past the end of the stream, every request is
answered, and the tokens of a text account for each of its characters that was read.
-/

namespace TableLexer

namespace Cursor

variable {σ : Type} {t : Tables} {c c' : Cursor σ}

/-- The same scan over another source. -/
def withSource {τ : Type} (c : Cursor σ) (source : τ) : Cursor τ :=
  ⟨source, c.state, c.lookahead, c.position, c.pending, c.ready⟩

theorem Exhausted.withSource {τ : Type} (h : c.Exhausted) (source : τ) :
    (c.withSource source).Exhausted := ⟨h.finished, h.nothing_kept, h.nothing_gathered⟩

/-- Whether the next tick sets the gathered text aside as word text. -/
def SetsAside (t : Tables) (c : Cursor σ) : Prop :=
  Control.ofState c.state = .startToken ∨
    Control.ofState c.state = .endToken ∧ t.kindOf c.pending.state = .word

/-- What holds of a scan at every moment. The tables have an entry for whatever may be looked up,
what is set aside is word text, the next request is answered by a number of ticks, and once the
end is reported, it is reported ever after without another read. -/
structure Secure [CharSource σ] (t : Tables) (c : Cursor σ) : Prop where
  transition : ∀ ch : Option Char, ∃ row target, t.rows[c.state]? = some row ∧
    row[t.alphabet.symbolOf ch]? = some target ∧ target < t.stateCount
  kind : c.state < t.stateCount ∧ c.pending.state < t.stateCount ∧
    ∀ kept ∈ c.ready, kept.state < t.stateCount
  reads : Control.ofState c.state = .advance → c.lookahead ≠ none
  absorbs : c.SetsAside t → c.pending.text ≠ "" → t.kindOf c.pending.state = .word
  answered : (∃ token c', c.next t false = (.token token, c')) ∨
    ∃ c', c.next t false = (.finished, c')
  bounded : ∃ bound, ∀ fuel, bound ≤ fuel → c.run t false fuel = c.next t false
  ended : ∀ c', c.next t false = (.finished, c') →
    ∀ {τ : Type} [CharSource τ] (source : τ),
      (c'.withSource source).next t false = (.finished, c'.withSource source)

theorem Safe.secure {c : Cursor TextSource} (sound : t.Sound) (h : c.Safe t) : c.Secure t where
  transition ch := by
    have inside := h.state_lt
    have found : t.rows[c.state]? = some t.rows[c.state] := Array.getElem?_eq_getElem inside
    have column : t.alphabet.symbolOf ch < t.rows[c.state].size := by
      rw [sound.row_size found, ← sound.width_eq]
      exact sound.symbolOf_lt ch
    refine ⟨_, _, found, Array.getElem?_eq_getElem column, ?_⟩
    have target := sound.next_lt h.state_lt ch
    rw [Tables.next, found, Option.bind_some, Array.getElem?_eq_getElem column,
      Option.getD_some] at target
    rwa [Tables.stateCount, sound.kinds_size]
  kind := by
    rw [Tables.stateCount, sound.kinds_size]
    exact ⟨h.state_lt, h.pending_lt, h.ready_lt⟩
  reads := h.reads
  absorbs := by
    rintro (starts | ⟨-, word⟩) more
    · exact h.hands_over starts more
    · exact word
  answered := next_text sound h.toFit false
  bounded := ⟨c.budget, (next_answered sound h.toFit false).2⟩
  ended c' next {τ} _ source := by
    have exhausted := (exhausted_of_run sound h.toFit next).withSource source
    exact exhausted.run_eq (by rw [budget]; omega)

/-- The tokens of a text account for what was read of it: each character that was read is in
exactly one of them, in its place there, and each token begins where its first character
stands. -/
def Accounted (text : String) (tokens : List Token) (c : Cursor TextSource) : Prop :=
  ∃ read ≤ text.toList.length, text.toList.drop read = c.lookahead.toList ++ c.source.rest ∧
    ∃ spans : List (List Nat),
      List.Forall₂ (fun token span => Covers text.toList token.text token.start span) tokens spans ∧
      spans.flatten.Perm (List.range read)

namespace Ledger

variable {chars : List Char} {given : List Token} {spans : List (List Nat)}
variable {kept gathered : List Nat} {read : Nat} {c : Cursor TextSource}

/-- There are no more tokens than characters. -/
theorem length_given_le (h : Ledger t chars given spans kept gathered read c) :
    given.length ≤ chars.length := by
  have spanned : given.length ≤ spans.flatten.length := by
    have tokens := h.tokens
    clear h
    induction tokens with
    | nil => exact Nat.le_refl _
    | cons accounts rest ih =>
        have more := List.length_pos_iff.mpr (mt accounts.text_eq_empty_iff.mpr accounts.text_ne)
        rw [List.length_cons, List.flatten_cons, List.length_append]
        omega
  have whole := h.whole.length_eq
  rw [List.length_append, List.length_range] at whole
  have := h.read_le
  omega

/-- At the end, everything that was read has been given out. -/
theorem spans_perm (h : Ledger t chars given spans kept gathered read c) (ends : c.Exhausted) :
    spans.flatten.Perm (List.range read) := by
  have keeps := h.keeps
  simp only [ends.nothing_kept] at keeps
  have nothing : gathered = [] := by
    rw [← h.gathers.text_eq_empty_iff, ends.nothing_gathered]
    rfl
  have whole := h.whole
  rwa [keeps, nothing, List.append_nil, List.append_nil] at whole

end Ledger

end Cursor

namespace Session

variable {σ : Type} [CharSource σ] {s : Session σ} {c : Cursor σ}

/-- A request to a session with a source is one to its cursor. -/
theorem next_of_cursor (bound : s.cursor = some c) :
    s.next.1 = (c.next s.tables s.skipSeparators).1 ∧
      s.next.2.cursor = some (c.next s.tables s.skipSeparators).2 ∧
      s.next.2.tables = s.tables ∧ s.next.2.skipSeparators = s.skipSeparators := by
  rcases next : c.next s.tables s.skipSeparators with ⟨outcome, c'⟩
  cases outcome <;> simp [Session.next, bound, next]

/-- The session after a number of requests. -/
def after (count : Nat) (s : Session σ) : Session σ := (fun s => s.next.2)^[count] s

/-- The cursor of a session is always one that its ticks lead to. -/
theorem exists_iterate_of_after {s : Session TextSource} {c : Cursor TextSource}
    (sound : s.tables.Sound) (fit : c.Fit s.tables) (bound : s.cursor = some c)
    (keeps : s.skipSeparators = false) (count : Nat) :
    ∃ n, (s.after count).cursor = some ((Cursor.step s.tables)^[n] c) := by
  induction count generalizing s c with
  | zero => exact ⟨0, bound⟩
  | succ count ih =>
      obtain ⟨-, cursor, tables, skip⟩ := next_of_cursor bound
      rcases next : c.next s.tables s.skipSeparators with ⟨outcome, c₁⟩
      rw [next] at cursor
      rw [keeps] at next skip
      have answered := (Cursor.next_answered sound fit false).1
      rw [next] at answered
      obtain ⟨m, rfl, -⟩ := Cursor.leads_of_run next answered
      have sound' : s.next.2.tables.Sound := tables ▸ sound
      have fit' : ((Cursor.step s.tables)^[m] c).Fit s.next.2.tables :=
        tables ▸ fit.iterate sound m
      obtain ⟨n, more⟩ := ih sound' fit' cursor skip
      refine ⟨n + m, ?_⟩
      rw [after, Function.iterate_succ_apply]
      rw [tables, ← Function.iterate_add_apply] at more
      exact more

end Session

/-- Tables that pass the check are safe to scan a text with. Binding the text succeeds, the scan
is secure at every moment that requests can bring about, and the requests are answered with
finitely many tokens, which account for what was read. -/
theorem checked_tables_scan_safely {alphabet : Alphabet} {rows : Array (Array StateId)}
    {kinds : Array TokenKind} {lexemes : Std.ExtTreeMap String StateId} {t : Tables}
    (h : Tables.ofParts alphabet rows kinds lexemes = .ok t) (text : String) :
    ∃ c : Cursor TextSource,
      (Session.ofTables t false).bind (TextSource.ofString text) =
        (.ok (), ⟨t, false, some c, none⟩) ∧
      (∀ n, ((Cursor.step t)^[n] c).Secure t) ∧
      (∀ count, ∃ n, ((⟨t, false, some c, none⟩ : Session TextSource).after count).cursor =
        some ((Cursor.step t)^[n] c)) ∧
      ∃ c', c.Yields t false (t.tokenize text false) c' ∧
        (∀ token ∈ t.tokenize text false, token.text ≠ "" ∧ token.kind = t.kindOf token.state ∧
          (token.kind = .word → token.state = StateId.word)) ∧
        c'.Accounted text (t.tokenize text false) := by
  have sound := Tables.Sound.of_ofParts h
  obtain ⟨c, start, ledger⟩ := Cursor.Ledger.start t text
  have safe : c.Safe t := .start sound start
  have tokens : t.tokenize text false = c.tokens t false (text.length + 1) := by
    rw [Tables.tokenize, start]
  refine ⟨c, ?_, fun n => (safe.iterate sound n).secure sound,
    Session.exists_iterate_of_after sound safe.toFit rfl rfl, ?_⟩
  · simp [Session.bind, Session.unbind, Session.ofTables, start]
  · obtain ⟨_, ⟨n, rfl, given⟩, ends⟩ := Cursor.leads_of_tokens sound safe.toFit (text.length + 1)
    obtain ⟨spans, kept, gathered, read, final⟩ := ledger.iterate sound safe n
    rw [List.nil_append, given, ← tokens] at final
    have few := final.length_given_le
    rw [String.length_toList] at few
    rw [← tokens] at ends
    have yields := ends.resolve_left (by omega)
    have accounts : List.Forall₂ (fun token span => (token.text ≠ "" ∧
        token.kind = t.kindOf token.state ∧ (token.kind = .word → token.state = StateId.word)) ∧
        Covers text.toList token.text token.start span) (t.tokenize text false) spans :=
      final.tokens.imp fun _ _ h => ⟨⟨h.text_ne, h.kind_eq, h.word_state⟩, h.toCovers⟩
    obtain ⟨each, covers⟩ := (List.forall₂_and_left _ _).mp accounts
    exact ⟨_, yields, each, read, final.read_le, final.to_come, spans, covers,
      final.spans_perm (yields.exhausted sound safe.toFit)⟩

/-- Tables that know words and blanks only. -/
theorem blank_tables_scan_safely :
    ∃ t, Tables.ofParts (Alphabet.empty.registerSeparator ' ')
        #[#[0, 0, 0], #[0, 4, 5], #[3, 3, 3], #[0, 4, 5], #[2, 4, 1], #[2, 2, 5]]
        StateId.reservedKinds.toArray ∅ = .ok t ∧
      ∃ c c' : Cursor TextSource, c.Yields t false (t.tokenize "to be" false) c' := by
  have checked := Tables.ofParts_eq_ok_iff.mpr ⟨(by decide +kernel : Tables.defect?
    (Alphabet.empty.registerSeparator ' ')
    #[#[0, 0, 0], #[0, 4, 5], #[3, 3, 3], #[0, 4, 5], #[2, 4, 1], #[2, 2, 5]]
    StateId.reservedKinds.toArray ∅ = none), rfl⟩
  obtain ⟨c, -, -, -, c', yields, -⟩ := checked_tables_scan_safely checked "to be"
  exact ⟨_, checked, c, c', yields⟩

end TableLexer
