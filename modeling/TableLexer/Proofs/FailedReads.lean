import TableLexer.Proofs.Answers
import TableLexer.Proofs.StoredParts

/-!
# Failing reads

A tick that reads gathers the character at hand first. If the read then fails, the cursor keeps its
state and its lookahead, so the request that follows gathers the same character once more. A scan
of a source with failing reads therefore goes the way of the scan of the text without them, state by
state: its tokens have the same kinds, come from the same states and hold the same characters of the
stream, but each character stands there once for every attempt to read on behind it. Lines and
columns count the repeated characters too. Each failing read is reported once.
-/

namespace TableLexer

/-- A character of a stream, with the failures that are met before the read behind it succeeds. -/
structure Mark where
  char : Char
  failures : List ReadError
  deriving DecidableEq

namespace Mark

/-- What a source answers from the delivery of the character up to the next one. -/
def events (m : Mark) : List ScriptEvent := .char m.char :: m.failures.map .failure

/-- What a scan gathers for the character: once for every attempt to read on. -/
def echo (m : Mark) : List Char := List.replicate (m.failures.length + 1) m.char

theorem echo_ne_nil (m : Mark) : m.echo ≠ [] := by simp [echo]

/-- One failure more. -/
theorem echo_cons (ch : Char) (e : ReadError) (failures : List ReadError) :
    (⟨ch, e :: failures⟩ : Mark).echo = ch :: (⟨ch, failures⟩ : Mark).echo := rfl

end Mark

/-- A source answers the reads to come with these events, and then reports its end. -/
def CharSource.Delivers {σ : Type} [CharSource σ] : σ → List ScriptEvent → Prop
  | source, [] => ∃ rest, CharSource.read source = (.ok none, rest)
  | source, .char ch :: events =>
    ∃ rest, CharSource.read source = (.ok (some ch), rest) ∧ Delivers rest events
  | source, .failure e :: events =>
    ∃ rest, CharSource.read source = (.error e, rest) ∧ Delivers rest events

/-- A scripted source answers with its script. -/
theorem ScriptSource.delivers (events : List ScriptEvent) (closeError : Option ReadError) :
    CharSource.Delivers (⟨events, closeError⟩ : ScriptSource) events := by
  induction events with
  | nil => exact ⟨_, rfl⟩
  | cons event events ih =>
      cases event with
      | char ch => exact ⟨_, rfl, ih⟩
      | failure e => exact ⟨_, rfl, ih⟩

/-- A text that is made up of the echoes of the characters at the places of a span, in order, and
begins where the echoes of all characters before the first of them end. -/
structure Echoes (marks : List Mark) (text : String) (start : Position) (span : List Nat) :
    Prop where
  spelled : ∃ held : List Mark,
    span.map (marks[·]?) = held.map some ∧ text.toList = held.flatMap Mark.echo
  starts : ∀ first ∈ span.head?,
    start = Position.start.afterAll ((marks.take first).flatMap Mark.echo)

namespace Echoes

variable {marks : List Mark} {text text' : String} {start start' : Position} {span span' : List Nat}

theorem empty (marks : List Mark) (start : Position) : Echoes marks "" start [] :=
  ⟨⟨[], rfl, rfl⟩, by simp⟩

theorem text_eq_empty_iff (h : Echoes marks text start span) : text = "" ↔ span = [] := by
  obtain ⟨held, places, spelled⟩ := h.spelled
  have same : span = [] ↔ held = [] := by
    rw [← List.map_eq_nil_iff (f := (marks[·]?)), places, List.map_eq_nil_iff]
  rw [same, ← String.toList_eq_nil_iff, spelled, List.flatMap_eq_nil_iff]
  constructor
  · intro silent
    exact List.eq_nil_iff_forall_not_mem.mpr fun m mem => m.echo_ne_nil (silent m mem)
  · rintro rfl
    simp

/-- Gathering the echo of the next character. -/
theorem push (h : Echoes marks text start span) {n : Nat} {m : Mark} (found : marks[n]? = some m)
    (fresh : span = [] → start = Position.start.afterAll ((marks.take n).flatMap Mark.echo)) :
    Echoes marks (text ++ String.ofList m.echo) start (span ++ [n]) := by
  obtain ⟨held, places, spelled⟩ := h.spelled
  refine ⟨⟨held ++ [m], ?_, ?_⟩, ?_⟩
  · rw [List.map_append, places, List.map_append, List.map_singleton, List.map_singleton, found]
  · rw [String.toList_append, spelled, String.toList_ofList, List.flatMap_append,
      List.flatMap_singleton]
  · intro first mem
    cases span with
    | nil =>
        cases mem
        exact fresh rfl
    | cons head span => exact h.starts first mem

/-- Text that is added to earlier text. -/
theorem append (h : Echoes marks text start span) (h' : Echoes marks text' start' span')
    (more : span ≠ []) : Echoes marks (text ++ text') start (span ++ span') := by
  obtain ⟨held, places, spelled⟩ := h.spelled
  obtain ⟨held', places', spelled'⟩ := h'.spelled
  refine ⟨⟨held ++ held', ?_, ?_⟩, ?_⟩
  · rw [List.map_append, places, places', List.map_append]
  · rw [String.toList_append, spelled, spelled', List.flatMap_append]
  · intro first mem
    cases span with
    | nil => exact absurd rfl more
    | cons head span => exact h.starts first mem

end Echoes

/-- The same kind of token, from the same state. -/
def Token.Alike (a b : Token) : Prop := b.kind = a.kind ∧ b.state = a.state

/-- Text over one span makes tokens that are alike, or none at all. -/
theorem Echoes.token? {marks : List Mark} {t : Tables} {p q : Pending} {span : List Nat}
    (covers : Covers (marks.map Mark.char) p.text p.start span)
    (echoes : Echoes marks q.text q.start span) (same : q.state = p.state) :
    Option.Rel (fun a b : Token => a.Alike b ∧ Echoes marks b.text b.start span)
      (p.token? t) (q.token? t) := by
  by_cases nothing : p.text = ""
  · have none : q.text = "" :=
      echoes.text_eq_empty_iff.mpr (covers.text_eq_empty_iff.mp nothing)
    rw [Pending.token?_eq_none.mpr nothing, Pending.token?_eq_none.mpr none]
    exact .none
  · have more : q.text ≠ "" := fun none =>
      nothing (covers.text_eq_empty_iff.mpr (echoes.text_eq_empty_iff.mp none))
    rw [Pending.token?_of_text_ne nothing, Pending.token?_of_text_ne more, same]
    exact .some ⟨⟨rfl, rfl⟩, echoes⟩

namespace Cursor

variable {σ : Type} {t : Tables}

/-- Gathers the echo of a character. -/
def gatherEcho (m : Mark) (d : Cursor σ) : Cursor σ :=
  { d with
    pending := ⟨d.pending.text ++ String.ofList m.echo, d.pending.start, d.state⟩
    position := d.position.afterAll m.echo }

theorem gatherEcho_gather (d : Cursor σ) (ch : Char) (e : ReadError) (failures : List ReadError)
    (source : σ) : gatherEcho ⟨ch, failures⟩ { d.gather ch with source := source } =
      { d.gatherEcho ⟨ch, e :: failures⟩ with source := source } := by
  have text : d.pending.text.push ch ++ String.ofList (Mark.mk ch failures).echo =
      d.pending.text ++ String.ofList (ch :: (Mark.mk ch failures).echo) :=
    String.toList_injective (by simp)
  simp only [gatherEcho, gather, text, Mark.echo_cons, Position.afterAll, List.foldl_cons]

variable [CharSource σ]

/-- The characters that a cursor has before it: the lookahead, and what its source delivers. -/
def Faces (d : Cursor σ) : List Mark → Prop
  | [] => d.lookahead = none
  | m :: marks => d.lookahead = some m.char ∧
      CharSource.Delivers d.source (m.failures.map .failure ++ marks.flatMap Mark.events)

/-- The read that ends all attempts behind a character. -/
theorem read_delivers {source : σ} {marks : List Mark}
    (h : CharSource.Delivers source (marks.flatMap Mark.events)) :
    ∃ rest, CharSource.read source = (.ok (marks.map Mark.char).head?, rest) ∧
      ∀ d : Cursor σ, d.source = rest → d.lookahead = (marks.map Mark.char).head? →
        d.Faces marks := by
  cases marks with
  | nil =>
      obtain ⟨rest, read⟩ := h
      exact ⟨rest, read, fun d _ look => look⟩
  | cons m marks =>
      obtain ⟨rest, read, later⟩ := h
      refine ⟨rest, read, fun d at_rest look => ⟨look, ?_⟩⟩
      rw [at_rest]
      exact later

/-- Reading on behind a character reports its failures and gathers its echo. The induction is on the
failures: each of them adds the character to what is gathered and leaves the state as it was. -/
theorem brings_gatherEcho {d : Cursor σ} {m : Mark} {marks : List Mark}
    (reads : Control.ofState d.state = .advance) (faces : d.Faces (m :: marks)) :
    ∃ d', Brings t d (m.failures.map .failed) d' ∧ d'.Faces marks ∧
      ∃ source, d' = { d.gatherEcho m with
        source := source
        lookahead := (marks.map Mark.char).head?
        state := t.next d.state (t.alphabet.symbolOf (marks.map Mark.char).head?) } := by
  obtain ⟨ch, failures⟩ := m
  obtain ⟨look, delivers⟩ := faces
  induction failures generalizing d with
  | nil =>
      obtain ⟨rest, read, faces⟩ := read_delivers delivers
      have tick := tick_advance (t := t) reads look read
      have one := Brings.one t d
      rw [step, tick] at one
      refine ⟨_, one, faces _ rfl rfl, rest, ?_⟩
      rfl
  | cons e failures ih =>
      obtain ⟨rest, read, later⟩ := delivers
      have tick := tick_advance_error (t := t) reads look read
      have one := Brings.one t d
      rw [step, tick] at one
      obtain ⟨d', brings, faces, source, same⟩ :=
        ih (d := { d.gather ch with source := rest }) reads look later
      refine ⟨d', one.trans brings, faces, source, ?_⟩
      rw [same, gatherEcho_gather d ch e failures rest]
      rfl

/-- What two scans have told of a stream so far: tokens that are alike, over the same places of it,
and in the one of them the failures that were met. -/
structure Told (marks : List Mark) (given : List Token) (outcomes : List Outcome)
    (spans : List (List Nat)) (read : Nat) : Prop where
  alike : List.Forall₂ Token.Alike given (outcomes.filterMap Outcome.token?)
  echoed : List.Forall₂ (fun token span => Echoes marks token.text token.start span)
    (outcomes.filterMap Outcome.token?) spans
  reported : outcomes.filterMap Outcome.failure? = (marks.take read).flatMap Mark.failures

namespace Told

variable {marks : List Mark} {given : List Token} {outcomes : List Outcome}
variable {spans : List (List Nat)} {read : Nat}

theorem start (marks : List Mark) : Told marks [] [] [] 0 := ⟨.nil, .nil, rfl⟩

/-- The failures behind a character. -/
theorem failures (h : Told marks given outcomes spans read) {m : Mark}
    (found : marks[read]? = some m) :
    Told marks given (outcomes ++ m.failures.map .failed) spans (read + 1) := by
  have no_token : (m.failures.map Outcome.failed).filterMap Outcome.token? = [] :=
    List.filterMap_eq_nil_iff.mpr (by simp [Outcome.token?])
  have all : (m.failures.map Outcome.failed).filterMap Outcome.failure? = m.failures := by
    rw [List.filterMap_map]
    exact List.filterMap_some
  refine ⟨?_, ?_, ?_⟩
  · rw [List.filterMap_append, no_token, List.append_nil]
    exact h.alike
  · rw [List.filterMap_append, no_token, List.append_nil]
    exact h.echoed
  · rw [List.filterMap_append, all, h.reported, List.take_add_one, found, Option.toList_some,
      List.flatMap_append, List.flatMap_singleton]

/-- Both scans give a token. -/
theorem token (h : Told marks given outcomes spans read) {a b : Token} {span : List Nat}
    (alike : a.Alike b) (echoes : Echoes marks b.text b.start span) :
    Told marks (given ++ [a]) (outcomes ++ [.token b]) (spans ++ [span]) read := by
  have tokens : (outcomes ++ [Outcome.token b]).filterMap Outcome.token? =
      outcomes.filterMap Outcome.token? ++ [b] := by
    simp [Outcome.token?]
  refine ⟨?_, ?_, ?_⟩
  · rw [tokens]
    exact List.rel_append h.alike (.cons alike .nil)
  · rw [tokens]
    exact List.rel_append h.echoed (.cons echoes .nil)
  · rw [← h.reported]
    simp [Outcome.failure?]

end Told

/-- A scan of a text beside one of a source with failing reads. Both are in the same state with the
same character at hand, and what they have given out, kept apart and gathered stands at the same
places of the stream. -/
structure Twins (t : Tables) (marks : List Mark) (given : List Token) (outcomes : List Outcome)
    (spans : List (List Nat)) (kept gathered : List Nat) (read : Nat) (c : Cursor TextSource)
    (d : Cursor σ) : Prop where
  ledger : Ledger t (marks.map Mark.char) given spans kept gathered read c
  told : Told marks given outcomes spans read
  state_eq : d.state = c.state
  lookahead_eq : d.lookahead = c.lookahead
  gathering_eq : d.pending.state = c.pending.state
  keeps : Option.Rel (fun p q => q.state = p.state ∧ Echoes marks q.text q.start kept)
    c.ready d.ready
  gathers : Echoes marks d.pending.text d.pending.start gathered
  fresh : gathered = [] → d.pending.start = d.position
  position : d.position = Position.start.afterAll ((marks.take read).flatMap Mark.echo)
  faces : d.Faces (marks.drop read)

namespace Twins

variable {marks : List Mark} {given : List Token} {outcomes : List Outcome}
variable {spans : List (List Nat)} {kept gathered : List Nat} {read : Nat}
variable {c : Cursor TextSource} {d : Cursor σ}

/-- Both scans before the first character. -/
theorem start {marks : List Mark} {source : σ}
    (delivers : CharSource.Delivers source (marks.flatMap Mark.events)) :
    ∃ c d, Cursor.start (TextSource.ofString (String.ofList (marks.map Mark.char))) = .ok c ∧
      Cursor.start source = .ok d ∧ Twins t marks [] [] [] [] [] 0 c d := by
  obtain ⟨c, start, ledger⟩ := Ledger.start t (String.ofList (marks.map Mark.char))
  obtain ⟨rest, read, faces⟩ := read_delivers delivers
  rw [String.toList_ofList] at ledger
  refine ⟨c, _, start, by rw [Cursor.start, read], ?_⟩
  rw [Cursor.start, read_text, TextSource.ofString, String.toList_ofList] at start
  cases start
  exact ⟨ledger, .start marks, rfl, rfl, rfl, .none, .empty _ _, fun _ => rfl, rfl,
    faces _ rfl rfl⟩

theorem nextState_eq (h : Twins t marks given outcomes spans kept gathered read c d) :
    d.nextState t = c.nextState t := by
  rw [nextState, nextState, h.state_eq, h.lookahead_eq]

/-- Both scans read on behind a character. -/
theorem read_char (h : Twins t marks given outcomes spans kept gathered read c d) {ch : Char}
    (reads : Control.ofState c.state = .advance) (look : c.lookahead = some ch) :
    ∃ more d', Brings t d more d' ∧
      Twins t marks given (outcomes ++ more) spans kept (gathered ++ [read]) (read + 1)
        { c.gather ch with
          source := ⟨c.source.rest.tail⟩
          lookahead := c.source.rest.head?
          state := t.next c.state (t.alphabet.symbolOf c.source.rest.head?) } d' := by
  have faces := h.faces
  cases rest : marks.drop read with
  | nil =>
      rw [rest, Faces, h.lookahead_eq, look] at faces
      cases faces
  | cons m following =>
      rw [rest] at faces
      obtain rfl : ch = m.char := by
        have at_hand := faces.1
        rw [h.lookahead_eq, look] at at_hand
        exact Option.some.inj at_hand
      obtain ⟨d', brings, later, source, rfl⟩ :=
        brings_gatherEcho (t := t) (h.state_eq ▸ reads) faces
      have found : marks[read]? = some m := by
        rw [← List.head?_drop, rest, List.head?_cons]
      have taken : marks.take (read + 1) = marks.take read ++ [m] := by
        rw [List.take_add_one, found, Option.toList_some]
      have next : (following.map Mark.char).head? = c.source.rest.head? := by
        have come := h.ledger.to_come
        rw [look, Option.toList_some, List.singleton_append, ← List.map_drop, rest,
          List.map_cons] at come
        rw [List.tail_eq_of_cons_eq come]
      refine ⟨_, _, brings, h.ledger.read_char _ look, h.told.failures found, ?_, next, h.state_eq,
        h.keeps, ?_, ?_, ?_, ?_⟩
      · rw [next, h.state_eq]
      · exact h.gathers.push found fun nothing => by rw [h.fresh nothing, h.position]
      · simp
      · show d.position.afterAll m.echo = _
        rw [h.position, taken, List.flatMap_append, List.flatMap_singleton]
        exact List.foldl_append.symm
      · rw [← List.tail_drop, rest, List.tail_cons]
        exact later

/-- Both scans set word text aside. -/
theorem setAside (h : Twins t marks given outcomes spans kept gathered read c d) (fit : c.Fit t) :
    Twins t marks given outcomes spans (kept ++ gathered) [] read c.setAside d.setAside := by
  refine ⟨h.ledger.setAside fit, h.told, h.state_eq, h.lookahead_eq, rfl, ?_, .empty _ _,
    fun _ => rfl, h.position, h.faces⟩
  have covers := h.ledger.gathers
  have keeps := h.keeps
  have places := h.ledger.keeps
  simp only [Cursor.setAside]
  by_cases nothing : gathered = []
  · rw [if_pos (covers.text_eq_empty_iff.mpr nothing),
      if_pos (h.gathers.text_eq_empty_iff.mpr nothing), nothing, List.append_nil]
    exact keeps
  · rw [if_neg (mt covers.text_eq_empty_iff.mp nothing),
      if_neg (mt h.gathers.text_eq_empty_iff.mp nothing)]
    cases ready : c.ready with
    | none =>
        rw [ready] at keeps
        simp only [ready] at places
        generalize d.ready = other at keeps ⊢
        cases keeps
        rw [places, List.nil_append]
        exact .some ⟨h.gathering_eq, h.gathers⟩
    | some p =>
        rw [ready] at keeps
        simp only [ready] at places
        generalize d.ready = other at keeps ⊢
        cases keeps with
        | some held =>
            refine .some ⟨held.1, held.2.append h.gathers fun none => ?_⟩
            exact fit.ready_ne p ready (places.text_eq_empty_iff.mpr none)

theorem closed (h : Twins t marks given outcomes spans kept gathered read c d) (fit : c.Fit t) :
    ∃ kept gathered,
      Twins t marks given outcomes spans kept gathered read (c.closed t) (d.closed t) := by
  rw [Cursor.closed, Cursor.closed, h.gathering_eq]
  split
  · exact ⟨_, _, h.setAside fit⟩
  · exact ⟨_, _, h⟩

theorem with_state (h : Twins t marks given outcomes spans kept gathered read c d)
    (state : StateId) : Twins t marks given outcomes spans kept gathered read
      { c with state := state } { d with state := state } :=
  ⟨h.ledger.with_state state, h.told, rfl, h.lookahead_eq, h.gathering_eq, h.keeps, h.gathers,
    h.fresh, h.position, h.faces⟩

theorem ready_eq_none_iff (h : Twins t marks given outcomes spans kept gathered read c d) :
    d.ready = none ↔ c.ready = none := by
  have keeps := h.keeps
  generalize c.ready = p at keeps ⊢
  generalize d.ready = q at keeps ⊢
  cases keeps <;> simp

/-- What both scans give out of the word text kept apart, if anything. -/
theorem give_ready (h : Twins t marks given outcomes spans kept gathered read c d)
    (sound : t.Sound) (fit : c.Fit t) :
    ∃ spans kept,
      Twins t marks (given ++ (c.ready.bind (Pending.token? t)).toList)
        (outcomes ++ (d.ready.bind (Pending.token? t)).toList.map .token) spans kept gathered read
        { c with ready := none } { d with ready := none } := by
  have keeps := h.keeps
  have places := h.ledger.keeps
  cases ready : c.ready with
  | none =>
      have ready' := h.ready_eq_none_iff.mpr ready
      have same : { c with ready := none } = c := by rw [← ready]
      have same' : { d with ready := none } = d := by rw [← ready']
      simp only [ready', same, same', Option.bind_none, Option.toList_none, List.map_nil,
        List.append_nil]
      exact ⟨_, _, h⟩
  | some p =>
      rw [ready] at keeps
      simp only [ready] at places
      have gives := Pending.token?_of_text_ne (t := t) (fit.ready_ne p ready)
      generalize d.ready = other at keeps ⊢
      cases keeps with
      | @some _ q held =>
          have both := Echoes.token? (t := t) places held.2 held.1
          rw [Option.bind_some, Option.bind_some]
          rw [gives] at both ⊢
          generalize q.token? t = other at both ⊢
          cases both with
          | some token =>
              exact ⟨_, _, h.ledger.give_kept sound ready gives, h.told.token token.1 token.2,
                h.state_eq, h.lookahead_eq, h.gathering_eq, .none, h.gathers, h.fresh, h.position,
                h.faces⟩

/-- What both scans give out of the text being gathered, if anything. -/
theorem flush (h : Twins t marks given outcomes spans kept gathered read c d) (sound : t.Sound) :
    ∃ spans gathered,
      Twins t marks (given ++ (c.pending.token? t).toList)
        (outcomes ++ (d.pending.token? t).toList.map .token) spans kept gathered read
        { c with pending := .startingAt c.position }
        { d with pending := .startingAt d.position } := by
  have both := Echoes.token? (t := t) h.ledger.gathers h.gathers h.gathering_eq
  cases gives : c.pending.token? t with
  | none =>
      rw [gives] at both
      generalize d.pending.token? t = other at both ⊢
      cases both
      simp only [Option.toList_none, List.map_nil, List.append_nil]
      exact ⟨_, _, h.ledger.drop_empty gives, h.told, h.state_eq, h.lookahead_eq, rfl, h.keeps,
        .empty _ _, fun _ => rfl, h.position, h.faces⟩
  | some a =>
      rw [gives] at both
      generalize d.pending.token? t = other at both ⊢
      cases both with
      | @some _ b token =>
          exact ⟨_, _, h.ledger.give_gathered sound gives, h.told.token token.1 token.2,
            h.state_eq, h.lookahead_eq, rfl, h.keeps, .empty _ _, fun _ => rfl, h.position,
            h.faces⟩

/-- A tick that does not read is one of both scans. -/
theorem steer (h : Twins t marks given outcomes spans kept gathered read c d) (sound : t.Sound)
    (fit : c.Fit t) (steers : Control.ofState c.state ≠ .advance) : ∃ spans kept gathered,
      Twins t marks (given ++ (c.tick t).token?.toList)
        (outcomes ++ (d.tick t).token?.toList.map .token) spans kept gathered read
        (c.step t) (d.step t) := by
  have following := h.nextState_eq
  cases control : Control.ofState c.state with
  | advance => exact absurd control steers
  | startToken =>
      have control' := h.state_eq ▸ control
      rw [step_startToken control, step_startToken control', tick_startToken control,
        tick_startToken control', following]
      simp only [Tick.token?, Option.toList_none, List.map_nil, List.append_nil]
      exact ⟨_, _, _, (h.setAside fit).with_state _⟩
  | endToken =>
      have control' := h.state_eq ▸ control
      rw [step_endToken control, step_endToken control', token?_endToken control,
        token?_endToken control', following]
      obtain ⟨kept, gathered, closed⟩ := h.closed fit
      obtain ⟨spans, kept, gave⟩ := closed.give_ready sound (fit.closed sound)
      exact ⟨_, _, _, gave.with_state _⟩
  | flush =>
      have control' := h.state_eq ▸ control
      rw [step_flush control, step_flush control', token?_flush control, token?_flush control',
        following]
      obtain ⟨spans, gathered, flushed⟩ := h.flush sound
      exact ⟨_, _, _, flushed.with_state _⟩
  | finish =>
      have control' := h.state_eq ▸ control
      rw [step_finish control, step_finish control', token?_finish control,
        token?_finish control']
      cases ready : c.ready with
      | none =>
          have ready' := h.ready_eq_none_iff.mpr ready
          obtain ⟨spans, gathered, flushed⟩ := h.flush sound
          simp only [ready, ready'] at flushed ⊢
          exact ⟨_, _, _, flushed⟩
      | some p =>
          have more : d.ready ≠ none := by simp [h.ready_eq_none_iff, ready]
          obtain ⟨q, ready'⟩ := Option.ne_none_iff_exists'.mp more
          obtain ⟨spans, kept, gave⟩ := h.give_ready sound fit
          simp only [ready, ready', Option.bind_some] at gave ⊢
          exact ⟨_, _, _, gave⟩

/-- A tick of the scan of the text is matched by ticks of the other. -/
theorem step (h : Twins t marks given outcomes spans kept gathered read c d) (sound : t.Sound)
    (safe : c.Safe t) : ∃ more spans kept gathered read d', Brings t d more d' ∧
      Twins t marks (given ++ (c.tick t).token?.toList) (outcomes ++ more) spans kept gathered read
        (c.step t) d' := by
  by_cases reads : Control.ofState c.state = .advance
  · obtain ⟨ch, look⟩ := Option.ne_none_iff_exists'.mp (safe.reads reads)
    have tick := tick_advance (t := t) reads look (read_text c.source)
    obtain ⟨more, d', brings, twins⟩ := h.read_char reads look
    rw [Cursor.step, tick, Tick.token?, Option.toList_none, List.append_nil]
    exact ⟨_, _, _, _, _, _, brings, twins⟩
  · obtain ⟨spans, kept, gathered, twins⟩ := h.steer sound safe.toFit reads
    exact ⟨_, _, _, _, _, _, .of_steers (h.state_eq.symm ▸ reads), twins⟩

/-- Any number of ticks is matched. -/
theorem iterate (h : Twins t marks given outcomes spans kept gathered read c d) (sound : t.Sound)
    (safe : c.Safe t) (n : Nat) : ∃ more spans kept gathered read d', Brings t d more d' ∧
      Twins t marks (given ++ Cursor.given t n c) (outcomes ++ more) spans kept gathered read
        ((Cursor.step t)^[n] c) d' := by
  induction n generalizing given outcomes spans kept gathered read c d with
  | zero =>
      refine ⟨[], spans, kept, gathered, read, d, .refl d, ?_⟩
      rw [Cursor.given, List.append_nil, List.append_nil]
      exact h
  | succ n ih =>
      obtain ⟨first, spans, kept, gathered, read, d₁, brings, next⟩ := h.step sound safe
      obtain ⟨later, spans, kept, gathered, read, d', brings', last⟩ := ih next (safe.step sound)
      refine ⟨first ++ later, spans, kept, gathered, read, d', brings.trans brings', ?_⟩
      rw [Cursor.given, ← List.append_assoc, ← List.append_assoc]
      exact last

/-- Both scans are exhausted together. -/
theorem exhausted (h : Twins t marks given outcomes spans kept gathered read c d)
    (ends : c.Exhausted) : d.Exhausted := by
  have nothing : gathered = [] := by
    rw [← h.ledger.gathers.text_eq_empty_iff, ends.nothing_gathered]
    rfl
  have text : d.pending.text = "" := h.gathers.text_eq_empty_iff.mpr nothing
  have state : d.pending.state = StateId.word := by
    rw [h.gathering_eq, ends.nothing_gathered]
    rfl
  refine ⟨h.state_eq ▸ ends.finished, h.ready_eq_none_iff.mpr ends.nothing_kept, ?_⟩
  rw [Pending.startingAt, ← text, ← h.fresh nothing, ← state]

end Twins

end Cursor

/-- A scan of a source with failing reads answers as the scan of the text without them does, but for
echoes. Reads that fail behind a character leave the kinds and the states of all tokens as they are,
and each failure is reported once, in order; but the character is repeated in its token once for
every failure. -/
theorem failed_reads_echo {t : Tables} (admitted : t.Admitted) {σ : Type} [CharSource σ]
    {source : σ} {marks : List Mark}
    (delivers : CharSource.Delivers source (marks.flatMap Mark.events)) :
    let text := String.ofList (marks.map Mark.char)
    ∃ (echoed : List Token) (spans : List (List Nat)) (read : Nat),
      read ≤ marks.length ∧ spans.flatten.Perm (List.range read) ∧
      List.Forall₂ (fun token span => Covers text.toList token.text token.start span)
        (t.tokenize text false) spans ∧
      List.Forall₂ (fun token span => Echoes marks token.text token.start span) echoed spans ∧
      List.Forall₂ Token.Alike (t.tokenize text false) echoed ∧
      ∀ skip, t.tokenize text skip = (t.tokenize text false).filter (Token.shown skip) ∧
        ∃ (s : Session σ) (answers : List Outcome),
          (Session.ofTables t skip).bind source = (.ok (), s) ∧
          (∀ count, answers.length < count → s.answers count = answers) ∧
          answers.filterMap Outcome.token? = echoed.filter (Token.shown skip) ∧
          answers.filterMap Outcome.failure? = (marks.take read).flatMap Mark.failures := by
  intro text
  have sound := admitted.sound
  obtain ⟨c, d, start, start', twins⟩ := Cursor.Twins.start (t := t) delivers
  obtain ⟨c', same, safe, -, n, given, ends, -⟩ := sound.exists_scan text
  obtain rfl : c = c' := Except.ok.inj (start.symm.trans same)
  obtain ⟨outcomes, spans, kept, gathered, read, d', brings, last⟩ := twins.iterate sound safe n
  rw [given, List.nil_append, List.nil_append] at last
  refine ⟨_, spans, read, ?_, last.ledger.spans_perm ends, ?_, last.told.echoed, last.told.alike,
    fun skip => ⟨sound.tokenize_skip text skip, ?_⟩⟩
  · simpa using last.ledger.read_le
  · rw [String.toList_ofList]
    exact last.ledger.tokens.imp fun _ _ h => h.toCovers
  · have fit : d.Fit t := .start sound start'
    have answers := brings.answers sound fit (last.exhausted ends) skip
    refine ⟨⟨t, skip, some d, none⟩, _, ?_, fun count enough => ?_,
      Outcome.filterMap_token?_filter skip outcomes, ?_⟩
    · simp [Session.bind, Session.unbind, Session.ofTables, start']
    · exact Session.answers_eq rfl answers enough
    · rw [Outcome.filterMap_failure?_filter, last.told.reported]

/-- One character and one failure behind it. -/
theorem failed_read_repeats_character :
    let t := (RuleSet.ofDeclarations []).compile
    let source : ScriptSource := ⟨[.char 'a', .failure (.device "x")], none⟩
    t.Admitted ∧ CharSource.Delivers source [.char 'a', .failure (.device "x")] ∧
      ∃ (s : Session ScriptSource) (answers : List Outcome),
        (Session.ofTables t true).bind source = (.ok (), s) ∧
        (∀ count, answers.length < count → s.answers count = answers) ∧
        answers.filterMap Outcome.token? = [⟨.word, "aa", .start, StateId.word⟩] ∧
        answers.filterMap Outcome.failure? = [.device "x"] := by
  intro t source
  let m : Mark := ⟨'a', [.device "x"]⟩
  have admitted : t.Admitted := .inl ⟨_, rfl⟩
  have delivers : CharSource.Delivers source ([m].flatMap Mark.events) :=
    ScriptSource.delivers _ none
  have clean : t.tokenize "a" false = [⟨.word, "a", .start, StateId.word⟩] := by decide +kernel
  obtain ⟨echoed, spans, read, -, perm, covers, echoes, alike, scans⟩ :=
    failed_reads_echo admitted delivers
  rw [show String.ofList ([m].map Mark.char) = "a" from rfl, clean] at covers alike
  obtain ⟨first, rfl⟩ : ∃ span, spans = [span] := List.length_eq_one_iff.mp covers.length_eq.symm
  obtain ⟨token, rfl⟩ : ∃ token, echoed = [token] := List.length_eq_one_iff.mp alike.length_eq.symm
  obtain ⟨⟨kind, state⟩, -⟩ := List.forall₂_cons.mp alike
  obtain ⟨⟨spelled, -, -⟩, -⟩ := List.forall₂_cons.mp covers
  obtain ⟨⟨⟨held, places, text⟩, starts⟩, -⟩ := List.forall₂_cons.mp echoes
  obtain ⟨i, rfl⟩ : ∃ i, first = [i] :=
    List.length_eq_one_iff.mp (by simpa using (congrArg List.length spelled).symm)
  obtain rfl : read = 1 := by simpa using perm.length_eq.symm
  obtain rfl : i = 0 := by simpa using perm.subset List.mem_cons_self
  obtain rfl : held = [m] := List.map_injective_iff.mpr (Option.some_injective _) places.symm
  have repeated : token = ⟨.word, "aa", .start, StateId.word⟩ := by
    obtain ⟨_, _, _, _⟩ := token
    obtain rfl := kind
    obtain rfl := state
    obtain rfl := starts 0 rfl
    obtain rfl := String.toList_injective (text.trans (show _ = "aa".toList from rfl))
    rfl
  obtain ⟨-, s, answers, bound, asked, tokens, failures⟩ := scans true
  rw [repeated] at tokens
  exact ⟨admitted, delivers, s, answers, bound, asked, tokens, failures⟩

/-- The token that a scan of the text gives is not the one that is given after the failure. -/
theorem failed_read_changes_token :
    let t := (RuleSet.ofDeclarations []).compile
    let bound := (Session.ofTables t true).bind
      (⟨[.char 'a', .failure (.device "x")], none⟩ : ScriptSource)
    t.tokenize "a" true = [⟨.word, "a", .start, StateId.word⟩] ∧ bound.1 = .ok () ∧
      bound.2.answers 3 =
        [.failed (.device "x"), .token ⟨.word, "aa", .start, StateId.word⟩] := by
  intro t bound
  exact ⟨by decide +kernel, rfl, by decide +kernel⟩

end TableLexer
