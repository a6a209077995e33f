import TableLexer.Proofs.Runs
import TableLexer.Proofs.Segments

/-!
# A scan with compiled tables gives out joined segments

The cursor of a scan over compiled tables stands at a place of the automaton. Between two segments
it stands where a token begins, has gathered nothing and may keep word text apart. From there
ticks lead through one segment to the next such cursor; what they give out is what the segment
completes. Hence the tokens of a text are its segments, with adjacent word text joined.
-/

namespace TableLexer

/-- The token that a segment makes at a position. -/
def Segment.token (start : Position) (p : Segment StateId) : Token :=
  ⟨p.kind, String.ofList p.text, start, p.label⟩

/-- The tokens that located segments make. -/
def Segment.tokens (located : List (Position × Segment StateId)) : List Token :=
  located.map fun (start, p) => p.token start

theorem Segment.mem_tokens {located : List (Position × Segment StateId)} {token : Token} :
    token ∈ tokens located ↔ ∃ start p, (start, p) ∈ located ∧ p.token start = token := by
  simp [tokens]

/-- The texts of tokens, put together, are what their segments hold. -/
theorem Segment.toList_join_tokens (start : Position) (ps : List (Segment StateId)) :
    (String.join ((tokens (locate start ps)).map Token.text)).toList = ps.flatMap text := by
  have texts : ((tokens (locate start ps)).map Token.text).flatMap String.toList =
      ((locate start ps).map Prod.snd).flatMap text := by
    simp [List.flatMap_map, tokens, token]
  rw [String.toList_join, texts, map_snd_locate]

theorem Position.afterAll_append (p : Position) (cs ds : List Char) :
    p.afterAll (cs ++ ds) = (p.afterAll cs).afterAll ds := List.foldl_append

namespace Pending

/-- Gathered word text together with what was kept apart before it. -/
def joined (kept : Option Pending) (p : Pending) : Pending :=
  match kept with
  | none => p
  | some k => { k with text := k.text ++ p.text }

end Pending

theorem Cursor.setAside_of_text_ne {σ : Type} {c : Cursor σ} (more : c.pending.text ≠ "") :
    c.setAside = { c with
      pending := .startingAt c.position
      ready := some (c.pending.joined c.ready) } := by
  rw [Cursor.setAside, if_neg more]
  cases c.ready <;> rfl

namespace Blueprint

variable {b : Blueprint} {place : Place} {c : Char} {rest : List Char} {pos : Position}
variable {pending : Pending} {kept : Option Pending}

/-- A cursor at a place, before the given characters. -/
def cursor (b : Blueprint) (place : Place) (input : List Char) (pos : Position) (pending : Pending)
    (kept : Option Pending) : Cursor TextSource :=
  ⟨⟨input.tail⟩, b.number place, input.head?, pos, pending, kept⟩

/-- The cursor after a segment has been gathered. -/
def gathered (b : Blueprint) (m : Munch) (pos : Position) (pending : Pending)
    (kept : Option Pending) : Cursor TextSource :=
  b.cursor (b.onward m.place m.rest.head?) m.rest (pos.afterAll m.text)
    ⟨pending.text ++ String.ofList m.text, pending.start, b.number m.place⟩ kept

/-- The next state by the tables is the number of the next place. -/
theorem Formed.next_number (h : b.Formed) (mem : place ∈ b.forest.places) (ch : Option Char) :
    (Tables.ofBlueprint b).next (b.number place) ((Tables.ofBlueprint b).alphabet.symbolOf ch) =
      b.number (b.onward place ch) := by
  rw [show (Tables.ofBlueprint b).alphabet.symbolOf ch = b.alphabet.symbolOf ch from
    Alphabet.symbolOf_freeze b.alphabet ch]
  exact Blueprint.next_number mem (h.alphabet.symbolOf_lt ch)

namespace Lexing

variable (h : b.Lexing)
include h

/-- A character is gathered. -/
theorem leads_gather (mem : place ∈ b.forest.places) (reads : place.consumes = true) (c : Char)
    (rest : List Char) (pos : Position) (pending : Pending) (kept : Option Pending) :
    Cursor.Leads (Tables.ofBlueprint b) (b.cursor place (c :: rest) pos pending kept) []
      (b.cursor (b.onward place rest.head?) rest (pos.after c)
        ⟨pending.text.push c, pending.start, b.number place⟩ kept) := by
  apply Cursor.Leads.of_moved
  rw [Cursor.tick_advance (control_number_of_consumes reads) rfl (Cursor.read_text _)]
  unfold cursor
  rw [← h.toFormed.next_number mem rest.head?]
  rfl

/-- All that can be read on from a place is gathered. -/
theorem leads_munch (mem : place ∈ b.forest.places) (reads : place.consumes = true) (c : Char)
    (rest : List Char) (pos : Position) (pending : Pending) (kept : Option Pending) :
    Cursor.Leads (Tables.ofBlueprint b) (b.cursor place (c :: rest) pos pending kept) []
      (b.gathered ((b.munch place rest).carry c) pos pending kept) := by
  have one : ∀ (text : String) (c : Char), text.push c = text ++ String.ofList [c] := by
    intro text c
    apply String.toList_injective
    simp
  have gather := h.leads_gather mem reads c rest pos pending kept
  induction rest generalizing place c pos pending with
  | nil =>
      rw [one] at gather
      exact gather
  | cons d rest ih =>
      rw [munch_cons]
      split
      · next more =>
          have inner := h.onward_mem mem (some d)
          have later := ih inner more d (pos.after c)
            ⟨pending.text.push c, pending.start, b.number place⟩
            (h.leads_gather inner more d rest _ _ _)
          have same : ∀ text : List Char, pending.text.push c ++ String.ofList text =
              pending.text ++ String.ofList (c :: text) := by
            intro text
            rw [one, String.append_assoc, ← String.ofList_append]
            rfl
          rw [gathered, same] at later
          exact gather.trans later
      · rw [one] at gather
        exact gather

/-- Word text is set aside before a new token. -/
theorem leads_startToken (rest : List Char) (pos : Position) (kept : Option Pending)
    (more : pending.text ≠ "") :
    Cursor.Leads (Tables.ofBlueprint b) (b.cursor .startToken rest pos pending kept) []
      (b.cursor (b.onward .startToken rest.head?) rest pos (.startingAt pos)
        (some (pending.joined kept))) := by
  have mem := b.forest.startToken_mem
  apply Cursor.Leads.of_moved
  rw [Cursor.tick_startToken rfl, Cursor.setAside_of_text_ne more]
  unfold cursor
  rw [← h.toFormed.next_number mem rest.head?]
  rfl

/-- A complete token that is not word text comes after the word text kept apart. -/
theorem leads_endToken (rest : List Char) (pos : Position) (kept : Option Pending)
    (other : (Tables.ofBlueprint b).kindOf pending.state ≠ .word) :
    Cursor.Leads (Tables.ofBlueprint b) (b.cursor .endToken rest pos pending kept)
      (kept.bind (Pending.token? (Tables.ofBlueprint b))).toList
      (b.cursor .flush rest pos pending none) := by
  have mem : Place.endToken ∈ b.forest.places := b.forest.mem_places_of_reserved (by decide)
  have same : (b.cursor .endToken rest pos pending kept).closed (Tables.ofBlueprint b) =
      b.cursor .endToken rest pos pending kept := if_neg other
  have tick := Cursor.Leads.tick (Tables.ofBlueprint b) (b.cursor .endToken rest pos pending kept)
  rw [Cursor.token?_endToken rfl, Cursor.step_endToken rfl, same] at tick
  have next : (b.cursor .endToken rest pos pending kept).nextState (Tables.ofBlueprint b) =
      b.number .flush := h.toFormed.next_number mem rest.head?
  rw [next] at tick
  exact tick

/-- Word text at the end of the stream is given out together with what was kept apart before it. -/
theorem leads_endToken_word (rest : List Char) (pos : Position) (kept : Option Pending)
    (word : (Tables.ofBlueprint b).kindOf pending.state = .word) (more : pending.text ≠ "") :
    Cursor.Leads (Tables.ofBlueprint b) (b.cursor .endToken rest pos pending kept)
      ((pending.joined kept).token? (Tables.ofBlueprint b)).toList
      (b.cursor .flush rest pos (.startingAt pos) none) := by
  have mem : Place.endToken ∈ b.forest.places := b.forest.mem_places_of_reserved (by decide)
  have closed : (b.cursor .endToken rest pos pending kept).closed (Tables.ofBlueprint b) =
      b.cursor .endToken rest pos (.startingAt pos) (some (pending.joined kept)) :=
    (if_pos word).trans (Cursor.setAside_of_text_ne more)
  have tick := Cursor.Leads.tick (Tables.ofBlueprint b) (b.cursor .endToken rest pos pending kept)
  rw [Cursor.token?_endToken rfl, Cursor.step_endToken rfl, closed] at tick
  have next : (b.cursor .endToken rest pos pending kept).nextState (Tables.ofBlueprint b) =
      b.number .flush := h.toFormed.next_number mem rest.head?
  rw [next] at tick
  exact tick

/-- What has been gathered is given out, and a new token begins. -/
theorem leads_flush (rest : List Char) (pos : Position) (pending : Pending) :
    Cursor.Leads (Tables.ofBlueprint b) (b.cursor .flush rest pos pending none)
      (pending.token? (Tables.ofBlueprint b)).toList
      (b.cursor (b.onward .startToken rest.head?) rest pos (.startingAt pos) none) := by
  have mem : Place.flush ∈ b.forest.places := b.forest.mem_places_of_reserved (by decide)
  have tick := Cursor.Leads.tick (Tables.ofBlueprint b) (b.cursor .flush rest pos pending none)
  rw [Cursor.token?_flush rfl, Cursor.step_flush rfl] at tick
  have next : (b.cursor .flush rest pos pending none).nextState (Tables.ofBlueprint b) =
      b.number (b.onward .flush rest.head?) := h.toFormed.next_number mem rest.head?
  rw [next] at tick
  exact tick

end Lexing

/-- Word text kept apart that ends at a position. -/
structure EndsWord (b : Blueprint) (pos : Position) (k : Pending) : Prop where
  kind_eq : (Tables.ofBlueprint b).kindOf k.state = .word
  text_ne : k.text ≠ ""
  ends : k.start.afterAll k.text.toList = pos

/-- The segment that word text kept apart makes. -/
def keptSegments : Option Pending → List (Segment StateId)
  | none => []
  | some k => [⟨.word, k.text.toList, StateId.word⟩]

/-- The position where the next token begins. -/
def keptStart (pos : Position) : Option Pending → Position
  | none => pos
  | some k => k.start

/-- The tokens that segments make behind word text kept apart. -/
def tokensAfter (pos : Position) (kept : Option Pending) (ps : List (Segment StateId)) :
    List Token :=
  Segment.tokens (Segment.locate (keptStart pos kept) (Segment.join (keptSegments kept ++ ps)))

theorem token?_of_word {k : Pending} (word : b.EndsWord pos k) : k.token? (Tables.ofBlueprint b) =
    some (Segment.token k.start ⟨.word, k.text.toList, StateId.word⟩) := by
  rw [Pending.token?_of_text_ne word.text_ne, word.kind_eq, if_pos rfl, Segment.token,
    String.ofList_toList]

/-- A segment of another kind completes the word text before it. -/
theorem tokensAfter_cons_of_ne_word {kept : Option Pending} (word : ∀ k ∈ kept, b.EndsWord pos k)
    {p : Segment StateId} (other : p.kind ≠ .word) (ps : List (Segment StateId)) :
    tokensAfter pos kept (p :: ps) = (kept.bind (Pending.token? (Tables.ofBlueprint b))).toList ++
      p.token pos :: tokensAfter (pos.afterAll p.text) none ps := by
  cases kept with
  | none =>
      simp only [tokensAfter, keptSegments, keptStart, List.nil_append,
        Segment.join_cons_of_ne_word other, Segment.locate]
      rfl
  | some k =>
      have ends := word k rfl
      simp only [tokensAfter, keptSegments, keptStart, List.singleton_append, List.nil_append]
      rw [Segment.join_cons, Segment.join_cons_of_ne_word other,
        Segment.before_cons_of_ne_word other, Segment.locate, Segment.locate, ends.ends,
        Option.bind_some, token?_of_word ends]
      rfl

/-- Word text joins the word text before it. -/
theorem tokensAfter_cons_of_word {p : Pending} (start : p.start = pos) (kept : Option Pending)
    (after : Position) (ps : List (Segment StateId)) :
    tokensAfter pos kept (⟨.word, p.text.toList, StateId.word⟩ :: ps) =
      tokensAfter after (some (p.joined kept)) ps := by
  cases kept with
  | none => simp [tokensAfter, keptSegments, keptStart, Pending.joined, start]
  | some k =>
      simp only [tokensAfter, keptSegments, keptStart, List.singleton_append, Pending.joined,
        String.toList_append]
      rw [Segment.join_cons_cons rfl rfl]

/-- Gathered word text that joins what was kept apart. -/
theorem EndsWord.joined {p : Pending} {kept : Option Pending} (word : ∀ k ∈ kept, b.EndsWord pos k)
    (start : p.start = pos) (kind : (Tables.ofBlueprint b).kindOf p.state = .word)
    (more : p.text ≠ "") : b.EndsWord (pos.afterAll p.text.toList) (p.joined kept) := by
  cases kept with
  | none =>
      refine ⟨kind, more, ?_⟩
      rw [Pending.joined, start]
  | some k =>
      have before := word k rfl
      refine ⟨before.kind_eq, ?_, ?_⟩
      · simp [Pending.joined, before.text_ne]
      · simp only [Pending.joined, String.toList_append]
        rw [Position.afterAll_append, before.ends]

/-- A cursor where a token begins. -/
def fresh (b : Blueprint) (input : List Char) (pos : Position) (kept : Option Pending) :
    Cursor TextSource :=
  b.cursor (b.onward .startToken input.head?) input pos (.startingAt pos) kept

/-- What a cursor has gathered when a segment ends. -/
def Munch.collected (m : Munch) (b : Blueprint) (pos : Position) : Pending :=
  ⟨String.ofList m.text, pos, b.number m.place⟩

theorem Munch.toList_collected (m : Munch) (b : Blueprint) (pos : Position) :
    (m.collected b pos).text.toList = m.text := String.toList_ofList

theorem Munch.collected_text_ne {m : Munch} (more : m.text ≠ []) (b : Blueprint) (pos : Position) :
    (m.collected b pos).text ≠ "" := by
  rw [ne_eq, ← String.toList_eq_nil_iff, Munch.toList_collected]
  exact more

theorem Munch.segment_of_word {m : Munch} (word : b.forest.kindAt m.place = .word)
    (pos : Position) :
    m.segment b = ⟨.word, (m.collected b pos).text.toList, StateId.word⟩ := by
  rw [segment, stateAt, if_pos word, word, toList_collected]

namespace Lexing

variable {m : Munch}

/-- The characters of a segment are gathered at one go. -/
theorem leads_first (h : b.Lexing) (c : Char) (rest : List Char) (pos : Position)
    (kept : Option Pending) : Cursor.Leads (Tables.ofBlueprint b) (b.fresh (c :: rest) pos kept) []
      (b.cursor (b.onward (b.first c rest).place (b.first c rest).rest.head?) (b.first c rest).rest
        (pos.afterAll (b.first c rest).text) ((b.first c rest).collected b pos) kept) := by
  have begins := b.forest.startToken_mem
  have munch := h.leads_munch (h.onward_mem begins (some c)) (h.onward_startToken_reads c) c rest
    pos (.startingAt pos) kept
  have text : (Pending.startingAt pos).text ++ String.ofList (b.first c rest).text =
      String.ofList (b.first c rest).text := String.empty_append
  change Cursor.Leads _ _ _ (b.gathered (b.first c rest) pos (.startingAt pos) kept) at munch
  rw [gathered, text] at munch
  exact munch

theorem kindOf_collected (stops : Stops b m) (pos : Position) :
    (Tables.ofBlueprint b).kindOf (m.collected b pos).state = b.forest.kindAt m.place :=
  kindOf_number stops.mem

/-- Gathered word text ends where it has been read. -/
theorem endsWord_collected (stops : Stops b m) (more : m.text ≠ [])
    (word : b.forest.kindAt m.place = .word) {kept : Option Pending}
    (before : ∀ k ∈ kept, b.EndsWord pos k) :
    b.EndsWord (pos.afterAll m.text) ((m.collected b pos).joined kept) := by
  have joined := EndsWord.joined before rfl ((kindOf_collected stops pos).trans word)
    (Munch.collected_text_ne more b pos)
  rwa [Munch.toList_collected] at joined

/-- At the end of the stream, word text is given out together with what was kept apart. -/
theorem leads_end_of_word (h : b.Lexing) (stops : Stops b m) (more : m.text ≠ [])
    (word : b.forest.kindAt m.place = .word) (pos : Position) (kept : Option Pending) :
    Cursor.Leads (Tables.ofBlueprint b)
      (b.cursor .endToken m.rest (pos.afterAll m.text) (m.collected b pos) kept)
      (((m.collected b pos).joined kept).token? (Tables.ofBlueprint b)).toList
      (b.fresh m.rest (pos.afterAll m.text) none) := by
  have gives := h.leads_endToken_word m.rest (pos.afterAll m.text) kept
    ((kindOf_collected stops pos).trans word) (Munch.collected_text_ne more b pos)
  have flush := h.leads_flush m.rest (pos.afterAll m.text) (.startingAt (pos.afterAll m.text))
  have both := gives.trans flush
  rwa [show Pending.token? _ (.startingAt (pos.afterAll m.text)) = none from rfl,
    Option.toList_none, List.append_nil] at both

/-- Any other segment is given out after the word text kept apart. -/
theorem leads_end_of_ne_word (h : b.Lexing) (stops : Stops b m) (more : m.text ≠ [])
    (other : b.forest.kindAt m.place ≠ .word) (pos : Position) (kept : Option Pending) :
    Cursor.Leads (Tables.ofBlueprint b)
      (b.cursor .endToken m.rest (pos.afterAll m.text) (m.collected b pos) kept)
      ((kept.bind (Pending.token? (Tables.ofBlueprint b))).toList ++ [(m.segment b).token pos])
      (b.fresh m.rest (pos.afterAll m.text) none) := by
  have kind := kindOf_collected stops pos
  have gives := h.leads_endToken m.rest (pos.afterAll m.text) kept (kind.trans_ne other)
  have token : (m.collected b pos).token? (Tables.ofBlueprint b) =
      some ((m.segment b).token pos) := by
    rw [Pending.token?_of_text_ne (Munch.collected_text_ne more b pos), kind, if_neg other,
      Segment.token, Munch.segment, stateAt, if_neg other]
    rfl
  have flush := h.leads_flush m.rest (pos.afterAll m.text) (m.collected b pos)
  rw [token] at flush
  exact gives.trans flush

/-- At the end of the stream, only word text kept apart is left to give out. -/
theorem leads_fresh_nil (h : b.Lexing) {kept : Option Pending}
    (word : ∀ k ∈ kept, b.EndsWord pos k) :
    Cursor.Leads (Tables.ofBlueprint b) (b.fresh [] pos kept) (tokensAfter pos kept [])
      (b.cursor .finish [] pos (.startingAt pos) none) := by
  rw [fresh, List.head?_nil, h.onward_startToken_none]
  cases kept with
  | none => exact .refl _ _
  | some k =>
      have tick := Cursor.Leads.tick (Tables.ofBlueprint b)
        (b.cursor .finish [] pos (.startingAt pos) (some k))
      rw [Cursor.token?_finish rfl, Cursor.step_finish rfl] at tick
      have last : k.token? (Tables.ofBlueprint b) = _ := token?_of_word (word k rfl)
      dsimp only [cursor] at tick
      rw [last] at tick
      exact tick

/-- From where a token begins, ticks lead to the end of the text and give out its segments,
joined. The induction is on the segments. -/
theorem leads_segments (h : b.Lexing) (input : List Char) (pos : Position) (kept : Option Pending)
    (word : ∀ k ∈ kept, b.EndsWord pos k) : ∃ c', c'.Exhausted ∧
      Cursor.Leads (Tables.ofBlueprint b) (b.fresh input pos kept)
        (tokensAfter pos kept (b.segments input)) c' := by
  induction input using segments.induct b generalizing pos kept with
  | case1 =>
      refine ⟨b.cursor .finish [] pos (.startingAt pos) none, ⟨rfl, rfl, rfl⟩, ?_⟩
      rw [segments_nil]
      exact h.leads_fresh_nil word
  | case2 c rest ih =>
      have gather := h.leads_first c rest pos kept
      have stops := h.first_stops c rest
      have more : (b.first c rest).text ≠ [] := List.cons_ne_nil _ _
      rw [segments_cons]
      generalize b.first c rest = m at ih gather stops more ⊢
      by_cases gathers : b.forest.kindAt m.place = .word
      · have joined := endsWord_collected stops more gathers word
        have start : (m.collected b pos).start = pos := rfl
        rw [Munch.segment_of_word gathers pos, tokensAfter_cons_of_word start kept
          (pos.afterAll m.text)]
        obtain starts | ⟨ends, left⟩ := stops.at_word gathers
        · rw [starts] at gather
          have aside := h.leads_startToken m.rest (pos.afterAll m.text) kept
            (Munch.collected_text_ne more b pos)
          obtain ⟨c', ended, later⟩ := ih (pos.afterAll m.text) (some _) fun k mem =>
            Option.some.inj mem ▸ joined
          exact ⟨c', ended, (gather.trans aside).trans later⟩
        · rw [ends] at gather
          have gives := h.leads_end_of_word stops more gathers pos kept
          obtain ⟨c', ended, later⟩ := ih (pos.afterAll m.text) none fun k mem => by cases mem
          refine ⟨c', ended, ?_⟩
          have whole := (gather.trans gives).trans later
          rw [token?_of_word joined] at whole
          rw [left, segments_nil] at whole ⊢
          exact whole
      · rw [stops.at_other gathers] at gather
        have gives := h.leads_end_of_ne_word stops more gathers pos kept
        obtain ⟨c', ended, later⟩ := ih (pos.afterAll m.text) none fun k mem => by cases mem
        refine ⟨c', ended, ?_⟩
        have whole := (gather.trans gives).trans later
        rw [List.nil_append, List.append_assoc] at whole
        rw [tokensAfter_cons_of_ne_word word gathers]
        exact whole

theorem start_eq (text : String) : Cursor.start (TextSource.ofString text) =
    .ok (b.cursor .startToken text.toList .start (.startingAt .start) none) := by
  rw [Cursor.start, Cursor.read_text]
  rfl

/-- Requests for the tokens of a text are answered with its segments, joined. -/
theorem yields_segments (h : b.Lexing) (text : String) : ∃ c',
    (b.cursor .startToken text.toList .start (.startingAt .start) none).Yields
      (Tables.ofBlueprint b) false (tokensAfter .start none (b.segments text.toList)) c' := by
  have mem := b.forest.startToken_mem
  have first : (b.cursor .startToken text.toList .start (.startingAt .start) none).tick
      (Tables.ofBlueprint b) = .moved
        (b.cursor (b.onward .startToken text.toList.head?) text.toList .start (.startingAt .start)
          none) := by
    rw [Cursor.tick_startToken rfl]
    unfold cursor
    rw [← h.toFormed.next_number mem text.toList.head?]
    rfl
  obtain ⟨c', ended, later⟩ := h.leads_segments text.toList .start none fun k mem => by cases mem
  have sound := h.toFormed.sound
  have whole := (Cursor.Leads.of_moved first).trans later
  exact ⟨c', whole.yields sound (.start sound (start_eq text)) ended⟩

/-- The tokens of a text by compiled tables. -/
theorem tokenize_eq (h : b.Lexing) (text : String) :
    (Tables.ofBlueprint b).tokenize text false =
      Segment.tokens (Segment.locate .start (Segment.join (b.segments text.toList))) := by
  obtain ⟨c', yields⟩ := h.yields_segments text
  have few : (tokensAfter .start none (b.segments text.toList)).length < text.length + 1 := by
    have le := b.length_join_segments_le text.toList
    rw [String.length_toList, ← Segment.map_snd_locate .start (Segment.join _),
      List.length_map] at le
    rw [tokensAfter, Segment.tokens, List.length_map]
    exact Nat.lt_succ_of_le le
  rw [Tables.tokenize, start_eq text]
  exact yields.tokens_eq few

end Lexing

end Blueprint

end TableLexer
