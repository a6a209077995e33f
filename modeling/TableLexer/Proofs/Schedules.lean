import TableLexer.Proofs.AlikeSources
import TableLexer.Proofs.FailedReads

/-!
# Schedules of requests

Whether separators are skipped may change between any two requests, also while a token is being
held back. The ticks of a scan do not look at this setting: they bring one full sequence of tokens,
and each request takes from it the first token that its setting shows, together with the hidden ones
before that. So a session answers any schedule as if the tokens of its source had been laid out
before it.
-/

namespace TableLexer

namespace CharSource

variable {σ : Type} [CharSource σ]

/-- No read of the source fails. -/
def Steady (source : σ) : Prop := ∀ count, ∃ next, answer source count = .ok next

/-- A source that never fails delivers some characters and then reports its end. The induction is on
the bound on the characters to come, which every character lowers. -/
theorem Steady.exists_delivers {source : σ} (steady : Steady source) :
    ∃ chars : List Char, Delivers source (chars.map .char) := by
  generalize bound : remaining source = n
  induction n using Nat.strongRecOn generalizing source with
  | ind n ih =>
      obtain ⟨next, answered⟩ := steady 0
      have read : read source = (.ok next, (read source).2) := Prod.ext answered rfl
      cases next with
      | none => exact ⟨[], _, read⟩
      | some ch =>
          have fewer := bound ▸ remaining_lt read
          have later : Steady (CharSource.read source).2 := fun count => steady (count + 1)
          obtain ⟨chars, delivers⟩ := ih _ fewer later rfl
          exact ⟨ch :: chars, _, read, delivers⟩

/-- What a source delivers is determined. -/
theorem Delivers.unique {source : σ} {events others : List ScriptEvent}
    (h : Delivers source events) (h' : Delivers source others) : events = others := by
  induction events generalizing source others with
  | nil =>
      obtain ⟨rest, read⟩ := h
      match others, h' with
      | [], _ => rfl
      | .char ch :: others, ⟨_, read', _⟩ | .failure e :: others, ⟨_, read', _⟩ =>
          cases read.symm.trans read'
  | cons event events ih =>
      cases event with
      | char ch =>
          obtain ⟨rest, read, later⟩ := h
          match others, h' with
          | [], ⟨_, read'⟩ | .failure e :: others, ⟨_, read', _⟩ => cases read.symm.trans read'
          | .char ch' :: others, ⟨_, read', later'⟩ =>
              cases read.symm.trans read'
              rw [ih later later']
      | failure e =>
          obtain ⟨rest, read, later⟩ := h
          match others, h' with
          | [], ⟨_, read'⟩ | .char ch :: others, ⟨_, read', _⟩ => cases read.symm.trans read'
          | .failure e' :: others, ⟨_, read', later'⟩ =>
              cases read.symm.trans read'
              rw [ih later later']

end CharSource

namespace TextSource

/-- Text in memory never fails to be read. -/
theorem steady (source : TextSource) : CharSource.Steady source :=
  fun count => ⟨_, congrArg Prod.fst (Cursor.read_text (CharSource.after count source))⟩

theorem delivers_ofString (text : String) :
    CharSource.Delivers (ofString text) (text.toList.map .char) := by
  rw [ofString]
  induction text.toList with
  | nil => exact ⟨_, rfl⟩
  | cons ch rest ih => exact ⟨_, rfl, ih⟩

end TextSource

/-- A character that no failing read follows. -/
def Mark.calm (ch : Char) : Mark := ⟨ch, []⟩

namespace Mark

variable {chars : List Char}

theorem map_char_calm (chars : List Char) : (chars.map calm).map char = chars := by
  simp [Function.comp_def, calm]

theorem flatMap_events_calm (chars : List Char) :
    (chars.map calm).flatMap events = chars.map .char := by
  induction chars with
  | nil => rfl
  | cons ch chars ih =>
      rw [List.map_cons, List.flatMap_cons, ih]
      rfl

theorem flatMap_echo_calm (chars : List Char) : (chars.map calm).flatMap echo = chars := by
  induction chars with
  | nil => rfl
  | cons ch chars ih =>
      rw [List.map_cons, List.flatMap_cons, ih]
      rfl

theorem flatMap_failures_calm (chars : List Char) :
    (chars.map calm).flatMap failures = [] := by
  simp [List.flatMap_eq_nil_iff, calm]

end Mark

theorem Token.shown_eq_false {skip : Bool} {token : Token} :
    token.shown skip = false ↔ (skip && token.kind = .separator) = true := by
  rw [Token.shown, Bool.not_eq_false']

/-- Where no read fails, an echo is what it echoes. -/
theorem Token.eq_of_echoes {t : Tables} {chars : List Char} {a b : Token} {span : List Nat}
    (accounts : a.Accounts t chars span)
    (echoes : Echoes (chars.map Mark.calm) b.text b.start span) (alike : a.Alike b) : b = a := by
  have text : b.text.toList = a.text.toList := by
    obtain ⟨held, places, spelled⟩ := echoes.spelled
    have same : held.map some = (a.text.toList.map Mark.calm).map some := by
      calc held.map some = span.map fun i => chars[i]?.map Mark.calm := by
            rw [← places]
            simp
        _ = (span.map (chars[·]?)).map (Option.map Mark.calm) := by
            rw [List.map_map]
            rfl
        _ = (a.text.toList.map Mark.calm).map some := by
            rw [← accounts.spelled, List.map_map, List.map_map]
            rfl
    rw [spelled, List.map_injective_iff.mpr (Option.some_injective _) same,
      Mark.flatMap_echo_calm]
  have start : b.start = a.start := by
    cases span with
    | nil => exact absurd (accounts.text_eq_empty_iff.mpr rfl) accounts.text_ne
    | cons first span =>
        rw [echoes.starts first rfl, accounts.starts first rfl, ← List.map_take,
          Mark.flatMap_echo_calm]
  obtain ⟨kind, text', start', state⟩ := b
  obtain ⟨rfl, rfl⟩ := alike
  obtain rfl := String.toList_injective text
  obtain rfl := start
  rfl

/-- Where no read fails, two scans that tell of the same stream give the same tokens. -/
theorem Cursor.Told.outcomes_eq {t : Tables} {chars : List Char} {given : List Token}
    {outcomes : List Outcome} {spans : List (List Nat)} {read : Nat}
    (told : Told (chars.map Mark.calm) given outcomes spans read)
    (accounts : List.Forall₂ (Token.Accounts t chars) given spans) :
    outcomes.filterMap Outcome.token? = given ∧ outcomes.filterMap Outcome.failure? = [] := by
  constructor
  · have alike := told.alike
    have echoed := told.echoed
    generalize outcomes.filterMap Outcome.token? = tokens at alike echoed
    clear told
    induction accounts generalizing tokens with
    | nil =>
        cases alike
        rfl
    | cons account accounts ih =>
        cases alike with
        | cons same alike =>
            cases echoed with
            | cons echo echoed =>
                rw [Token.eq_of_echoes account echo same, ih _ alike echoed]
  · rw [told.reported, ← List.map_take, Mark.flatMap_failures_calm]

namespace Cursor

variable {σ : Type} [CharSource σ] {t : Tables} {c c' : Cursor σ} {outcomes : List Outcome}

/-- Whatever ticks bring without a failure are tokens. -/
theorem Brings.eq_map_token (brings : Brings t c outcomes c')
    (calm : outcomes.filterMap Outcome.failure? = []) :
    outcomes = (outcomes.filterMap Outcome.token?).map .token := by
  induction brings with
  | refl c => rfl
  | @tick c c' outcomes rest ih =>
      cases tick : c.tick t with
      | moved c₁ | ended c₁ =>
          rw [tick] at calm
          exact ih calm
      | gave token c₁ =>
          rw [tick] at calm
          exact congrArg (Outcome.token token :: ·) (ih calm)
      | failed e c₁ =>
          rw [tick] at calm
          cases calm

/-- A scan of a source that never fails brings the tokens of the text that it delivers. -/
theorem exists_brings (sound : t.Sound) {source : σ} {chars : List Char}
    (delivers : CharSource.Delivers source (chars.map .char)) :
    ∃ c c' : Cursor σ, Cursor.start source = .ok c ∧ c.Fit t ∧ c'.Exhausted ∧
      Brings t c ((t.tokenize (String.ofList chars) false).map .token) c' := by
  rw [← Mark.flatMap_events_calm] at delivers
  obtain ⟨c, d, start, start', twins⟩ := Twins.start (t := t) delivers
  rw [Mark.map_char_calm] at start
  obtain ⟨c', same, safe, -, n, given, ends, -⟩ := sound.exists_scan (String.ofList chars)
  obtain rfl : c = c' := Except.ok.inj (start.symm.trans same)
  obtain ⟨outcomes, spans, kept, gathered, read, d', brings, last⟩ := twins.iterate sound safe n
  rw [given, List.nil_append, List.nil_append] at last
  have accounts := last.ledger.tokens
  rw [Mark.map_char_calm] at accounts
  obtain ⟨tokens, calm⟩ := last.told.outcomes_eq accounts
  refine ⟨d, d', start', .start sound start', last.exhausted ends, ?_⟩
  rw [← tokens, ← brings.eq_map_token calm]
  exact brings

end Cursor

/-- What a session may be asked while it keeps its source: the next token, or to skip separators
from now on or not. -/
inductive Turn where
  | next
  | skipSeparators (on : Bool)
  deriving DecidableEq

/-- The answers to a schedule that takes its tokens from a list. A request passes over the
separators at the front of what is left if they are skipped, and takes the token behind them. -/
def Turn.deal : Bool → List Token → List Turn → List Outcome
  | _, _, [] => []
  | _, left, .skipSeparators on :: turns => deal on left turns
  | skip, left, .next :: turns =>
    match left.dropWhile fun token => skip && token.kind = .separator with
    | [] => .finished :: deal skip [] turns
    | token :: left => .token token :: deal skip left turns

namespace Session

variable {σ : Type} [CharSource σ]

/-- The answers to a schedule, and the session behind it. -/
def play : List Turn → Session σ → List Outcome × Session σ
  | [], s => ([], s)
  | .next :: turns, s => (s.next.1 :: (play turns s.next.2).1, (play turns s.next.2).2)
  | .skipSeparators on :: turns, s => play turns (s.setSkipSeparators on)

/-- The session still has these tokens to give, if it gives them all. -/
structure Owes (s : Session σ) (left : List Token) : Prop where
  sound : s.tables.Sound
  scan : ∃ c c' : Cursor σ, s.cursor = some c ∧ c.Fit s.tables ∧ c'.Exhausted ∧
    c.Brings s.tables (left.map .token) c'

namespace Owes

variable {s : Session σ} {left : List Token}

theorem setSkipSeparators (h : s.Owes left) (on : Bool) : (s.setSkipSeparators on).Owes left :=
  ⟨h.sound, h.scan⟩

/-- A request is answered with the first token left that is shown, or with the end if there is
none. -/
theorem next (h : s.Owes left) : ∃ rest, s.next.2.Owes rest ∧
    s.next.2.skipSeparators = s.skipSeparators ∧
    ∀ turns, Turn.deal s.skipSeparators left (.next :: turns) =
      s.next.1 :: Turn.deal s.skipSeparators rest turns := by
  obtain ⟨c, c', bound, fit, ends, brings⟩ := h.scan
  obtain ⟨answer, cursor, tables, skip⟩ := next_of_cursor bound
  have fit' : (c.next s.tables s.skipSeparators).2.Fit s.tables := fit.run h.sound _
  have owes : ∀ {rest : List Token},
      (c.next s.tables s.skipSeparators).2.Brings s.tables (rest.map .token) c' →
      s.next.2.Owes rest := by
    intro rest later
    refine ⟨tables ▸ h.sound, _, c', cursor, ?_⟩
    rw [tables]
    exact ⟨fit', ends, later⟩
  obtain ⟨finished, hidden⟩ | ⟨passed, outcome, later, c₁, parts, hidden, shows, found, rest⟩ :=
    brings.next h.sound fit ends s.skipSeparators
  · refine ⟨[], owes (by rw [finished]; exact .refl c'), skip, fun turns => ?_⟩
    have nothing : left.dropWhile (fun token => s.skipSeparators && token.kind = .separator) =
        [] := by
      rw [← List.append_nil left, List.dropWhile_append_of_pos, List.dropWhile_nil]
      intro token mem
      exact Token.shown_eq_false.mp (hidden _ (List.mem_map_of_mem mem))
    rw [Turn.deal, nothing, answer, finished]
  · obtain ⟨front, back, rfl, rfl, split⟩ := List.map_eq_append_iff.mp parts
    obtain ⟨token, rest', rfl, rfl, rfl⟩ := List.map_eq_cons_iff.mp split
    refine ⟨rest', owes (by rw [found]; exact rest), skip, fun turns => ?_⟩
    have first : (front ++ token :: rest').dropWhile
        (fun token => s.skipSeparators && token.kind = .separator) = token :: rest' := by
      rw [List.dropWhile_append_of_pos]
      · apply List.dropWhile_cons_of_neg
        intro omitted
        rw [Outcome.shown, Token.shown_eq_false.mpr omitted] at shows
        cases shows
      · intro token mem
        exact Token.shown_eq_false.mp (hidden _ (List.mem_map_of_mem mem))
    rw [Turn.deal, first, answer, found]

/-- A schedule is answered from the tokens left. -/
theorem play (h : s.Owes left) (turns : List Turn) :
    (s.play turns).1 = Turn.deal s.skipSeparators left turns := by
  induction turns generalizing s left with
  | nil => rfl
  | cons turn turns ih =>
      cases turn with
      | skipSeparators on => exact ih (h.setSkipSeparators on)
      | next =>
          obtain ⟨rest, owes, skip, dealt⟩ := h.next
          rw [dealt, ← skip, ← ih owes]
          rfl

/-- Without skipping, all tokens left are given one after the other. -/
theorem answers (h : s.Owes left) (keeps : s.skipSeparators = false) {count : Nat}
    (enough : left.length < count) : s.answers count = left.map .token := by
  obtain ⟨c, c', bound, fit, ends, brings⟩ := h.scan
  have answers := brings.answers h.sound fit ends s.skipSeparators
  have all : left.filter (Token.shown false) = left := List.filter_true left
  rw [Outcome.filter_shown_map_token, keeps, all, ← keeps] at answers
  exact answers_eq bound answers (by rwa [List.length_map])

end Owes

/-- A session that was just bound to a source without failing reads has all tokens of the text that
the source delivers before it. -/
theorem exists_bind_owes {t : Tables} (sound : t.Sound) (skip : Bool) {source : σ}
    {chars : List Char} (delivers : CharSource.Delivers source (chars.map .char)) :
    ∃ s : Session σ, (ofTables t skip).bind source = (.ok (), s) ∧ s.skipSeparators = skip ∧
      s.Owes (t.tokenize (String.ofList chars) false) := by
  obtain ⟨c, c', start, fit, ends, brings⟩ := Cursor.exists_brings sound delivers
  refine ⟨⟨t, skip, some c, none⟩, ?_, rfl, sound, c, c', rfl, fit, ends, brings⟩
  simp [Session.bind, unbind, ofTables, start]

end Session

/-- To skip separators is to leave them out, under any schedule. A source without failing reads
delivers some text, and with skipping off throughout, a session bound to it gives one full sequence
of tokens, those of that text. Whatever requests and changes of the setting follow the binding, the
answers are dealt from this sequence. In particular, a text scanned with skipping has the tokens of
the text scanned without, less the separators. -/
theorem skipping_deals_from_full_sequence {t : Tables} (admitted : t.Admitted) {σ : Type}
    [CharSource σ] {source : σ} (steady : CharSource.Steady source) :
    (∃ (chars : List Char) (full : List Token),
      CharSource.Delivers source (chars.map .char) ∧
      full = t.tokenize (String.ofList chars) false ∧
      (∃ s : Session σ, (Session.ofTables t false).bind source = (.ok (), s) ∧
        ∀ count, full.length < count → s.answers count = full.map .token) ∧
      ∀ skip, ∃ s : Session σ, (Session.ofTables t skip).bind source = (.ok (), s) ∧
        ∀ turns, (s.play turns).1 = Turn.deal skip full turns) ∧
    ∀ text, t.tokenize text true =
      (t.tokenize text false).filter fun token => token.kind ≠ .separator := by
  constructor
  · obtain ⟨chars, delivers⟩ := steady.exists_delivers
    refine ⟨chars, _, delivers, rfl, ?_, fun skip => ?_⟩
    · obtain ⟨s, bound, off, owes⟩ := Session.exists_bind_owes admitted.sound false delivers
      exact ⟨s, bound, fun count enough => owes.answers off enough⟩
    · obtain ⟨s, bound, setting, owes⟩ := Session.exists_bind_owes admitted.sound skip delivers
      exact ⟨s, bound, fun turns => setting ▸ owes.play turns⟩
  · intro text
    rw [admitted.sound.tokenize_skip text true]
    congr 1
    funext token
    simp [Token.shown]

/-- The blank between two words is skipped, and the one behind them is not. -/
theorem skipping_stops_between_words :
    let t := (RuleSet.ofDeclarations [.separators " "]).compile
    let turns : List Turn := [.next, .next, .skipSeparators false, .next, .next]
    t.Admitted ∧ CharSource.Steady (TextSource.ofString "a b ") ∧
      ∃ s : Session TextSource,
        (Session.ofTables t true).bind (TextSource.ofString "a b ") = (.ok (), s) ∧
        (s.play turns).1 =
          [.token ⟨.word, "a", ⟨1, 1⟩, StateId.word⟩, .token ⟨.word, "b", ⟨1, 3⟩, StateId.word⟩,
            .token ⟨.separator, " ", ⟨1, 4⟩, StateId.separatorRun⟩, .finished] := by
  intro t turns
  have admitted : t.Admitted := .inl ⟨_, rfl⟩
  have steady := TextSource.steady (.ofString "a b ")
  obtain ⟨⟨chars, full, delivers, rfl, -, dealt⟩, -⟩ :=
    skipping_deals_from_full_sequence admitted steady
  obtain rfl : chars = "a b ".toList := by
    have events := delivers.unique (TextSource.delivers_ofString "a b ")
    exact List.map_injective_iff.mpr (fun _ _ => ScriptEvent.char.inj) events
  obtain ⟨s, bound, play⟩ := dealt true
  refine ⟨admitted, steady, s, bound, (play turns).trans ?_⟩
  decide +kernel

end TableLexer
