import Mathlib.Data.List.Forall2
import TableLexer.Proofs.Runs

/-!
# A ledger of characters

Checked tables may come from anywhere, and their states may jump as they like. Still no character
is lost or doubled: at every tick, the characters read so far are those of the tokens given out,
those of the word text kept apart and those being gathered, each of them once. The ledger of a
scan names the places of these characters in the text. Their order is another matter, for tables
that flush a token while word text is kept give the later text out first.
-/

namespace TableLexer

/-- A text that is made up of the characters at the places of a span, in order, and begins at the
position of the first of them. -/
structure Covers (chars : List Char) (text : String) (start : Position) (span : List Nat) :
    Prop where
  spelled : text.toList.map some = span.map (chars[·]?)
  ascending : span.Pairwise (· < ·)
  starts : ∀ first ∈ span.head?, start = Position.start.afterAll (chars.take first)

namespace Covers

variable {chars : List Char} {text text' : String} {start start' : Position} {span span' : List Nat}

theorem empty (chars : List Char) (start : Position) : Covers chars "" start [] :=
  ⟨rfl, .nil, by simp⟩

theorem text_eq_empty_iff (h : Covers chars text start span) : text = "" ↔ span = [] := by
  rw [← String.toList_eq_nil_iff, ← List.map_eq_nil_iff (f := some), h.spelled, List.map_eq_nil_iff]

/-- Gathering the next character of the text. -/
theorem push (h : Covers chars text start span) {n : Nat} {ch : Char} (found : chars[n]? = some ch)
    (below : ∀ i ∈ span, i < n)
    (fresh : text = "" → start = Position.start.afterAll (chars.take n)) :
    Covers chars (text.push ch) start (span ++ [n]) := by
  refine ⟨?_, ?_, ?_⟩
  · rw [String.toList_push, List.map_append, List.map_append, h.spelled]
    simp [found]
  · rw [List.pairwise_append]
    refine ⟨h.ascending, List.pairwise_singleton _ _, fun i mem j last => ?_⟩
    rw [List.mem_singleton.mp last]
    exact below i mem
  · intro first mem
    cases span with
    | nil =>
        cases mem
        exact fresh (h.text_eq_empty_iff.mpr rfl)
    | cons head span => exact h.starts first mem

/-- Text that is added to earlier text. -/
theorem append (h : Covers chars text start span) (h' : Covers chars text' start' span')
    (before : ∀ i ∈ span, ∀ j ∈ span', i < j) (more : span ≠ []) :
    Covers chars (text ++ text') start (span ++ span') := by
  refine ⟨?_, List.pairwise_append.mpr ⟨h.ascending, h'.ascending, before⟩, ?_⟩
  · rw [String.toList_append, List.map_append, List.map_append, h.spelled, h'.spelled]
  · intro first mem
    cases span with
    | nil => exact absurd rfl more
    | cons head span => exact h.starts first mem

end Covers

/-- A token with its characters: it is not empty, and its state gathers text of its kind. -/
structure Token.Accounts (t : Tables) (chars : List Char) (token : Token) (span : List Nat) : Prop
    extends Covers chars token.text token.start span where
  text_ne : token.text ≠ ""
  kind_eq : token.kind = t.kindOf token.state
  word_state : token.kind = .word → token.state = StateId.word

theorem Token.Accounts.of_token? {t : Tables} {chars : List Char} {p : Pending} {token : Token}
    {span : List Nat} (sound : t.Sound) (covers : Covers chars p.text p.start span)
    (given : p.token? t = some token) : token.Accounts t chars span := by
  have more : p.text ≠ "" := by
    intro none
    rw [Pending.token?_eq_none.mpr none] at given
    cases given
  rw [Pending.token?_of_text_ne more] at given
  cases given
  refine ⟨covers, more, ?_, fun word => if_pos word⟩
  dsimp only
  split
  · next word => rw [word, sound.kindOf_word]
  · rfl

namespace Cursor

section Safe

variable {σ : Type} {t : Tables} {c : Cursor σ}

/-- A state that reads has a character to read, and only word text is handed over to a new token. -/
structure Safe (t : Tables) (c : Cursor σ) : Prop extends Fit t c where
  reads : Control.ofState c.state = .advance → c.lookahead ≠ none
  hands_over : Control.ofState c.state = .startToken → c.pending.text ≠ "" →
    t.kindOf c.pending.state = .word

namespace Safe

/-- No way leads to the start of a token from a state that steers. -/
theorem next_ne_startToken (sound : t.Sound) {state : StateId} (inside : state < 6)
    (steers : StateId.reservedKinds[state]? = some .empty) (ch : Option Char) :
    Control.ofState (t.next state (t.alphabet.symbolOf ch)) ≠ .startToken := by
  intro starts
  have word := sound.kindOf_of_next_startToken (Fit.reserved_lt sound inside)
    (Control.ofState_eq_startToken.mp starts)
  rw [sound.kindOf_eq steers] at word
  cases word

/-- A state that steers leads to one that reads only if there is a character. -/
theorem reads_next (sound : t.Sound) (fit : c.Fit t)
    (reads : Control.ofState (c.nextState t) = .advance) : c.lookahead ≠ none := by
  intro ends
  rw [nextState, ends] at reads
  exact sound.next_end fit.state_lt reads

variable [CharSource σ]

theorem start (sound : t.Sound) {source : σ} (h : Cursor.start source = .ok c) : c.Safe t := by
  refine ⟨.start sound h, ?_, ?_⟩
  · rw [Cursor.start] at h
    split at h <;> cases h
    exact Control.noConfusion
  · rw [Cursor.start] at h
    split at h <;> cases h
    exact fun _ more => absurd rfl more

theorem step (sound : t.Sound) (h : c.Safe t) : (c.step t).Safe t := by
  have fit := h.toFit.step sound
  cases control : Control.ofState c.state with
  | advance =>
      obtain ⟨ch, look⟩ := Option.ne_none_iff_exists'.mp (h.reads control)
      rcases read : CharSource.read c.source with ⟨e | following, source⟩
      · rw [Cursor.step, tick_advance_error control look read] at fit ⊢
        exact ⟨fit, fun _ => h.reads control, fun starts => by cases control.symm.trans starts⟩
      · rw [Cursor.step, tick_advance control look read] at fit ⊢
        refine ⟨fit, ?_, fun starts _ => ?_⟩
        · rintro reads rfl
          exact sound.next_end h.state_lt reads
        · exact sound.kindOf_of_next_startToken h.state_lt (Control.ofState_eq_startToken.mp starts)
  | startToken =>
      rw [step_startToken control] at fit ⊢
      exact ⟨fit, reads_next sound h.toFit, fun _ more => absurd rfl more⟩
  | endToken =>
      rw [step_endToken control] at fit ⊢
      have at_end := Control.ofState_eq_endToken.mp control
      refine ⟨fit, ?_, fun starts => ?_⟩
      · rw [lookahead_closed]
        exact reads_next sound h.toFit
      · rw [nextState, at_end] at starts
        exact absurd starts (next_ne_startToken sound (by decide) rfl _)
  | flush =>
      rw [step_flush control] at fit ⊢
      exact ⟨fit, reads_next sound h.toFit, fun _ more => absurd rfl more⟩
  | finish =>
      have same : (c.step t).state = c.state := by
        rw [step_finish control]
        split <;> rfl
      refine ⟨fit, fun reads => ?_, fun starts => ?_⟩
      · rw [same, control] at reads
        cases reads
      · rw [same, control] at starts
        cases starts

theorem iterate (sound : t.Sound) (h : c.Safe t) (n : Nat) : ((Cursor.step t)^[n] c).Safe t := by
  induction n generalizing c with
  | zero => exact h
  | succ n ih => exact ih (h.step sound)

end Safe

end Safe

/-- Where the characters read so far are: in the tokens given out, in the word text kept apart, or
among those being gathered. -/
structure Ledger (t : Tables) (chars : List Char) (given : List Token) (spans : List (List Nat))
    (kept gathered : List Nat) (read : Nat) (c : Cursor TextSource) : Prop where
  tokens : List.Forall₂ (Token.Accounts t chars) given spans
  whole : (spans.flatten ++ (kept ++ gathered)).Perm (List.range read)
  keeps : match c.ready with
    | none => kept = []
    | some p => Covers chars p.text p.start kept
  gathers : Covers chars c.pending.text c.pending.start gathered
  kept_before : ∀ i ∈ kept, ∀ j ∈ gathered, i < j
  fresh : c.pending.text = "" → c.pending.start = c.position
  position : c.position = Position.start.afterAll (chars.take read)
  to_come : chars.drop read = c.lookahead.toList ++ c.source.rest
  read_le : read ≤ chars.length

namespace Ledger

variable {t : Tables} {chars : List Char} {given : List Token} {spans : List (List Nat)}
variable {kept gathered : List Nat} {read : Nat} {c : Cursor TextSource}

theorem start (t : Tables) (text : String) : ∃ c, Cursor.start (TextSource.ofString text) = .ok c ∧
    Ledger t text.toList [] [] [] [] 0 c := by
  refine ⟨_, by rw [Cursor.start, read_text], ?_⟩
  refine ⟨.nil, .refl _, rfl, .empty _ _, by simp, fun _ => rfl, rfl, ?_, Nat.zero_le _⟩
  show text.toList = text.toList.head?.toList ++ text.toList.tail
  cases text.toList <;> rfl

theorem lt_of_mem_kept (h : Ledger t chars given spans kept gathered read c) {i : Nat}
    (mem : i ∈ kept) : i < read :=
  List.mem_range.mp (h.whole.mem_iff.mp (by simp [mem]))

theorem lt_of_mem_gathered (h : Ledger t chars given spans kept gathered read c) {i : Nat}
    (mem : i ∈ gathered) : i < read :=
  List.mem_range.mp (h.whole.mem_iff.mp (by simp [mem]))

/-- A character is read into the text being gathered. -/
theorem read_char (h : Ledger t chars given spans kept gathered read c) {ch : Char}
    (state : StateId) (look : c.lookahead = some ch) :
    Ledger t chars given spans kept (gathered ++ [read]) (read + 1)
      { c.gather ch with
        source := ⟨c.source.rest.tail⟩, lookahead := c.source.rest.head?, state := state } := by
  have come := h.to_come
  rw [look, Option.toList_some, List.singleton_append] at come
  have found : chars[read]? = some ch := by
    rw [← List.head?_drop, come, List.head?_cons]
  have taken : chars.take (read + 1) = chars.take read ++ [ch] := by
    rw [List.take_add_one, found, Option.toList_some]
  refine ⟨h.tokens, ?_, h.keeps, ?_, ?_, ?_, ?_, ?_, ?_⟩
  · rw [List.range_succ, ← List.append_assoc, ← List.append_assoc, List.append_assoc spans.flatten]
    exact h.whole.append_right [read]
  · apply h.gathers.push found (fun i mem => h.lt_of_mem_gathered mem)
    intro empty
    rw [h.fresh empty, h.position]
  · intro i mem j held
    obtain old | new := List.mem_append.mp held
    · exact h.kept_before i mem j old
    · rw [List.mem_singleton.mp new]
      exact h.lt_of_mem_kept mem
  · intro empty
    simp [gather] at empty
  · show c.position.after ch = _
    rw [taken, Position.afterAll, List.foldl_append, h.position]
    rfl
  · show chars.drop (read + 1) = c.source.rest.head?.toList ++ c.source.rest.tail
    rw [← List.tail_drop, come, List.tail_cons]
    cases c.source.rest <;> rfl
  · exact (List.getElem?_eq_some_iff.mp found).1

/-- Word text is set aside. -/
theorem setAside (h : Ledger t chars given spans kept gathered read c) (fit : c.Fit t) :
    Ledger t chars given spans (kept ++ gathered) [] read c.setAside := by
  refine ⟨h.tokens, ?_, ?_, .empty _ _, by simp, fun _ => rfl, h.position, h.to_come, h.read_le⟩
  · rw [List.append_nil]
    exact h.whole
  · have keeps := h.keeps
    simp only [Cursor.setAside]
    by_cases empty : c.pending.text = ""
    · rw [if_pos empty, h.gathers.text_eq_empty_iff.mp empty, List.append_nil]
      exact keeps
    · rw [if_neg empty]
      cases ready : c.ready with
      | none =>
          simp only [ready] at keeps
          rw [keeps]
          exact h.gathers
      | some p =>
          simp only [ready] at keeps
          apply keeps.append h.gathers h.kept_before
          intro none
          exact fit.ready_ne p ready (keeps.text_eq_empty_iff.mpr none)

theorem closed (h : Ledger t chars given spans kept gathered read c) (fit : c.Fit t) :
    ∃ kept gathered, Ledger t chars given spans kept gathered read (c.closed t) := by
  rw [Cursor.closed]
  split
  · exact ⟨_, _, h.setAside fit⟩
  · exact ⟨_, _, h⟩

theorem with_state (h : Ledger t chars given spans kept gathered read c) (state : StateId) :
    Ledger t chars given spans kept gathered read { c with state := state } :=
  ⟨h.tokens, h.whole, h.keeps, h.gathers, h.kept_before, h.fresh, h.position, h.to_come, h.read_le⟩

/-- The word text kept apart is given out. -/
theorem give_kept (h : Ledger t chars given spans kept gathered read c) (sound : t.Sound)
    {p : Pending} {token : Token} (ready : c.ready = some p) (gives : p.token? t = some token) :
    Ledger t chars (given ++ [token]) (spans ++ [kept]) [] gathered read
      { c with ready := none } := by
  have keeps := h.keeps
  simp only [ready] at keeps
  refine ⟨?_, ?_, rfl, h.gathers, by simp, h.fresh, h.position, h.to_come, h.read_le⟩
  · exact List.rel_append h.tokens (.cons (.of_token? sound keeps gives) .nil)
  · rw [List.flatten_append, List.flatten_singleton, List.nil_append, List.append_assoc]
    exact h.whole

/-- The text being gathered is given out. -/
theorem give_gathered (h : Ledger t chars given spans kept gathered read c) (sound : t.Sound)
    {token : Token} (gives : c.pending.token? t = some token) :
    Ledger t chars (given ++ [token]) (spans ++ [gathered]) kept [] read
      { c with pending := .startingAt c.position } := by
  refine ⟨?_, ?_, h.keeps, .empty _ _, by simp, fun _ => rfl, h.position, h.to_come, h.read_le⟩
  · exact List.rel_append h.tokens (.cons (.of_token? sound h.gathers gives) .nil)
  · rw [List.flatten_append, List.flatten_singleton, List.append_nil, List.append_assoc]
    exact (List.perm_append_comm.append_left _).trans h.whole

/-- Nothing was gathered, and nothing is lost. -/
theorem drop_empty (h : Ledger t chars given spans kept gathered read c)
    (empty : c.pending.token? t = none) :
    Ledger t chars given spans kept [] read { c with pending := .startingAt c.position } := by
  have nothing : gathered = [] := h.gathers.text_eq_empty_iff.mp (Pending.token?_eq_none.mp empty)
  subst nothing
  exact ⟨h.tokens, h.whole, h.keeps, .empty _ _, by simp, fun _ => rfl, h.position, h.to_come,
    h.read_le⟩

/-- What is given out by a flush or at the end of the stream. -/
theorem flush (h : Ledger t chars given spans kept gathered read c) (sound : t.Sound) :
    ∃ spans gathered, Ledger t chars (given ++ (c.pending.token? t).toList) spans kept gathered read
      { c with pending := .startingAt c.position } := by
  cases gives : c.pending.token? t with
  | none =>
      rw [Option.toList_none, List.append_nil]
      exact ⟨_, _, h.drop_empty gives⟩
  | some token => exact ⟨_, _, h.give_gathered sound gives⟩

/-- Every tick keeps the ledger. -/
theorem step (h : Ledger t chars given spans kept gathered read c) (sound : t.Sound)
    (safe : c.Safe t) :
    ∃ spans kept gathered read,
      Ledger t chars (given ++ (c.tick t).token?.toList) spans kept gathered read (c.step t) := by
  cases control : Control.ofState c.state with
  | advance =>
      obtain ⟨ch, look⟩ := Option.ne_none_iff_exists'.mp (safe.reads control)
      have tick := tick_advance (t := t) control look (read_text c.source)
      rw [Cursor.step, tick, Tick.token?, Option.toList_none, List.append_nil]
      exact ⟨_, _, _, _, h.read_char _ look⟩
  | startToken =>
      rw [step_startToken control, tick_startToken control, Tick.token?, Option.toList_none,
        List.append_nil]
      exact ⟨_, _, _, _, (h.setAside safe.toFit).with_state _⟩
  | endToken =>
      rw [step_endToken control, token?_endToken control]
      obtain ⟨kept, gathered, closed⟩ := h.closed safe.toFit
      cases ready : (c.closed t).ready with
      | none =>
          rw [Option.bind_none, Option.toList_none, List.append_nil, ← ready]
          exact ⟨_, _, _, _, closed.with_state _⟩
      | some p =>
          have gives := Pending.token?_of_text_ne (t := t)
            ((safe.toFit.closed sound).ready_ne p ready)
          rw [Option.bind_some, gives]
          exact ⟨_, _, _, _, (closed.give_kept sound ready gives).with_state _⟩
  | flush =>
      rw [step_flush control, token?_flush control]
      obtain ⟨spans, gathered, flushed⟩ := h.flush sound
      exact ⟨_, _, _, _, flushed.with_state _⟩
  | finish =>
      rw [step_finish control, token?_finish control]
      cases ready : c.ready with
      | none =>
          obtain ⟨spans, gathered, flushed⟩ := h.flush sound
          rw [ready] at flushed
          exact ⟨_, _, _, _, flushed⟩
      | some p =>
          have gives := Pending.token?_of_text_ne (t := t) (safe.ready_ne p ready)
          dsimp only
          rw [gives]
          exact ⟨_, _, _, _, h.give_kept sound ready gives⟩

/-- The ledger is kept all along a scan. -/
theorem iterate (h : Ledger t chars given spans kept gathered read c) (sound : t.Sound)
    (safe : c.Safe t) (n : Nat) : ∃ spans kept gathered read,
      Ledger t chars (given ++ Cursor.given t n c) spans kept gathered read
        ((Cursor.step t)^[n] c) := by
  induction n generalizing given spans kept gathered read c with
  | zero =>
      rw [Cursor.given, List.append_nil]
      exact ⟨_, _, _, _, h⟩
  | succ n ih =>
      obtain ⟨spans, kept, gathered, read, next⟩ := h.step sound safe
      rw [Cursor.given, ← List.append_assoc]
      exact ih next (safe.step sound)

end Ledger

end Cursor

end TableLexer
