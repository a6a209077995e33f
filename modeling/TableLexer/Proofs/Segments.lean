import TableLexer.Proofs.Compiled
import TableLexer.Scan.Token

/-!
# Segments of a text

An automaton cuts a text into segments. A segment is gathered at one go, from the place where a
token begins to the first steering place. A token is a segment, except that adjacent segments of
word text make one token. Segments carry a label, so that what is said about cutting and joining
does not depend on what else is known about a segment.
-/

namespace TableLexer

/-- A stretch of text of one kind. -/
structure Segment (ι : Type) where
  kind : TokenKind
  text : List Char
  label : ι
  deriving DecidableEq

namespace Segment

variable {ι κ : Type} {p q : Segment ι} {ps : List (Segment ι)}

/-- Puts a segment before others; word text joins word text that follows. -/
def before (p : Segment ι) : List (Segment ι) → List (Segment ι)
  | [] => [p]
  | q :: rest =>
    if p.kind = .word ∧ q.kind = .word then { p with text := p.text ++ q.text } :: rest
    else p :: q :: rest

/-- The tokens that segments make: adjacent word text is one token. -/
def join (ps : List (Segment ι)) : List (Segment ι) := ps.foldr before []

/-- Segments with the positions where they begin, if the first one begins at the given position. -/
def locate : Position → List (Segment ι) → List (Position × Segment ι)
  | _, [] => []
  | start, p :: rest => (start, p) :: locate (start.afterAll p.text) rest

/-- The same segments with other labels. -/
def relabel (f : ι → κ) (p : Segment ι) : Segment κ := ⟨p.kind, p.text, f p.label⟩

@[simp] theorem join_nil : join ([] : List (Segment ι)) = [] := rfl

theorem join_cons (p : Segment ι) (ps : List (Segment ι)) :
    join (p :: ps) = p.before (join ps) := rfl

theorem before_cons (p q : Segment ι) (ps : List (Segment ι)) : p.before (q :: ps) =
    if p.kind = .word ∧ q.kind = .word then { p with text := p.text ++ q.text } :: ps
    else p :: q :: ps := rfl

theorem before_of_ne_word (other : p.kind ≠ .word) (ps : List (Segment ι)) :
    p.before ps = p :: ps := by
  cases ps with
  | nil => rfl
  | cons q rest => exact if_neg fun both => other both.1

theorem join_cons_of_ne_word (other : p.kind ≠ .word) (ps : List (Segment ι)) :
    join (p :: ps) = p :: join ps := by
  rw [join_cons, before_of_ne_word other]

/-- Only word text joins what follows. -/
theorem before_cons_of_ne_word (other : q.kind ≠ .word) (p : Segment ι) (ps : List (Segment ι)) :
    p.before (q :: ps) = p :: q :: ps := if_neg fun both => other both.2

/-- Joining word text segment by segment, or two segments beforehand, comes to the same. -/
theorem join_cons_cons (word : p.kind = .word) (word' : q.kind = .word) (ps : List (Segment ι)) :
    join (p :: q :: ps) = join ({ p with text := p.text ++ q.text } :: ps) := by
  rw [join_cons, join_cons, join_cons]
  cases join ps with
  | nil => simp [before, word, word']
  | cons r rest =>
      by_cases word'' : r.kind = .word
      · simp [before, word, word', word'']
      · simp [before, word, word', word'']

theorem map_before (f : ι → κ) (p : Segment ι) (ps : List (Segment ι)) :
    (p.before ps).map (relabel f) = (p.relabel f).before (ps.map (relabel f)) := by
  cases ps with
  | nil => rfl
  | cons q rest =>
      rw [before_cons, List.map_cons, before_cons, apply_ite (List.map _)]
      rfl

theorem map_join (f : ι → κ) (ps : List (Segment ι)) :
    (join ps).map (relabel f) = join (ps.map (relabel f)) := by
  induction ps with
  | nil => rfl
  | cons p ps ih => rw [join_cons, map_before, ih, List.map_cons, join_cons]

theorem map_locate (f : ι → κ) (start : Position) (ps : List (Segment ι)) :
    locate start (ps.map (relabel f)) =
      (locate start ps).map fun (pos, p) => (pos, p.relabel f) := by
  induction ps generalizing start with
  | nil => rfl
  | cons p ps ih =>
      rw [List.map_cons, locate, locate, List.map_cons, ih]
      rfl

theorem map_snd_locate (start : Position) (ps : List (Segment ι)) :
    (locate start ps).map Prod.snd = ps := by
  induction ps generalizing start with
  | nil => rfl
  | cons p ps ih => rw [locate, List.map_cons, ih]

theorem mem_of_mem_locate {start pos : Position} (mem : (pos, p) ∈ locate start ps) : p ∈ ps := by
  rw [← map_snd_locate start ps]
  exact List.mem_map_of_mem mem

theorem flatMap_before (p : Segment ι) (ps : List (Segment ι)) :
    (p.before ps).flatMap text = p.text ++ ps.flatMap text := by
  cases ps with
  | nil => rfl
  | cons q rest =>
      rw [before_cons]
      split
      · simp
      · rfl

/-- Joining loses no text. -/
theorem flatMap_join (ps : List (Segment ι)) : (join ps).flatMap text = ps.flatMap text := by
  induction ps with
  | nil => rfl
  | cons p ps ih => rw [join_cons, flatMap_before, ih, List.flatMap_cons]

/-- What holds of segments and of longer word text holds of the tokens. -/
theorem forall_join {P : Segment ι → Prop} (each : ∀ p ∈ ps, P p)
    (longer : ∀ p : Segment ι, p.kind = .word → P p → ∀ text, P { p with text := p.text ++ text }) :
    ∀ p ∈ join ps, P p := by
  induction ps with
  | nil => simp
  | cons p ps ih =>
      have first := each p List.mem_cons_self
      have rest := ih fun q mem => each q (List.mem_cons_of_mem p mem)
      rw [join_cons]
      cases joined : join ps with
      | nil => simpa [before] using first
      | cons q more =>
          rw [joined] at rest
          rw [before_cons]
          split
          · next both =>
              intro r mem
              obtain rfl | mem := List.mem_cons.mp mem
              · exact longer p both.1 first q.text
              · exact rest r (List.mem_cons_of_mem q mem)
          · intro r mem
            obtain rfl | mem := List.mem_cons.mp mem
            · exact first
            · exact rest r mem

/-- There are no more segments than characters. -/
theorem length_le_flatMap (ps : List (Segment ι)) (more : ∀ p ∈ ps, p.text ≠ []) :
    ps.length ≤ (ps.flatMap text).length := by
  induction ps with
  | nil => exact Nat.le_refl _
  | cons p ps ih =>
      have first := List.length_pos_iff.mpr (more p List.mem_cons_self)
      have rest := ih fun q mem => more q (List.mem_cons_of_mem p mem)
      rw [List.length_cons, List.flatMap_cons, List.length_append]
      omega

end Segment

namespace Blueprint

/-- The place that the next character, or the end of the stream, leads to. -/
def onward (b : Blueprint) (place : Place) (ch : Option Char) : Place :=
  (b.row place).target (b.alphabet.symbolOf ch)

/-- What is gathered at one go, the place that gathered the last character of it, and what is
left. -/
structure Munch where
  text : List Char
  place : Place
  rest : List Char

/-- The same with one more character in front. -/
def Munch.carry (c : Char) (m : Munch) : Munch := { m with text := c :: m.text }

/-- Reads on from a place up to a steering one. -/
def munch (b : Blueprint) : Place → List Char → Munch
  | place, [] => ⟨[], place, []⟩
  | place, c :: rest =>
    if (b.onward place (some c)).consumes then (b.munch (b.onward place (some c)) rest).carry c
    else ⟨[], place, c :: rest⟩

/-- What is gathered from the beginning of a token. -/
def first (b : Blueprint) (c : Char) (rest : List Char) : Munch :=
  (b.munch (b.onward .startToken (some c)) rest).carry c

/-- The label of a segment is the state that its token reports. -/
def stateAt (b : Blueprint) (place : Place) : StateId :=
  if b.forest.kindAt place = .word then StateId.word else b.number place

/-- The segment that is gathered at one go. -/
def Munch.segment (m : Munch) (b : Blueprint) : Segment StateId :=
  ⟨b.forest.kindAt m.place, m.text, b.stateAt m.place⟩

variable {b : Blueprint}

theorem munch_cons (place : Place) (c : Char) (rest : List Char) : b.munch place (c :: rest) =
    if (b.onward place (some c)).consumes then (b.munch (b.onward place (some c)) rest).carry c
    else ⟨[], place, c :: rest⟩ := rfl

/-- Reading on divides the text into what is gathered and what is left. -/
theorem munch_append (b : Blueprint) (place : Place) (input : List Char) :
    (b.munch place input).text ++ (b.munch place input).rest = input := by
  induction input generalizing place with
  | nil => rfl
  | cons c rest ih =>
      rw [munch_cons]
      split
      · rw [Munch.carry, List.cons_append, ih]
      · rfl

theorem first_append (b : Blueprint) (c : Char) (rest : List Char) :
    (b.first c rest).text ++ (b.first c rest).rest = c :: rest :=
  congrArg (c :: ·) (b.munch_append _ rest)

theorem length_first_rest_lt (b : Blueprint) (c : Char) (rest : List Char) :
    (b.first c rest).rest.length < (c :: rest).length := by
  have whole := congrArg List.length (b.munch_append (b.onward .startToken (some c)) rest)
  rw [List.length_append] at whole
  change (b.munch _ rest).rest.length < _
  rw [List.length_cons]
  omega

/-- The segments of a text, from the beginning of a token. -/
def segments (b : Blueprint) : List Char → List (Segment StateId)
  | [] => []
  | c :: rest => (b.first c rest).segment b :: b.segments (b.first c rest).rest
termination_by text => text.length
decreasing_by exact b.length_first_rest_lt c rest

@[simp] theorem segments_nil (b : Blueprint) : b.segments [] = [] := by
  rw [segments]

theorem segments_cons (b : Blueprint) (c : Char) (rest : List Char) :
    b.segments (c :: rest) = (b.first c rest).segment b :: b.segments (b.first c rest).rest := by
  rw [segments]

/-- No text is lost in cutting. -/
theorem flatMap_segments (b : Blueprint) (text : List Char) :
    (b.segments text).flatMap Segment.text = text := by
  induction text using segments.induct b with
  | case1 => rw [segments_nil, List.flatMap_nil]
  | case2 c rest ih =>
      rw [segments_cons, List.flatMap_cons, ih]
      exact b.first_append c rest

/-- What holds of what is gathered from the beginning of a token holds of all segments. -/
theorem forall_mem_segments {P : Segment StateId → Prop}
    (each : ∀ c rest, P ((b.first c rest).segment b)) (text : List Char) :
    ∀ p ∈ b.segments text, P p := by
  induction text using segments.induct b with
  | case1 => simp
  | case2 c rest ih =>
      intro p mem
      rw [segments_cons] at mem
      obtain rfl | mem := List.mem_cons.mp mem
      · exact each c rest
      · exact ih p mem

theorem text_ne_of_mem_segments {text : List Char} {p : Segment StateId}
    (mem : p ∈ b.segments text) : p.text ≠ [] := by
  refine forall_mem_segments (P := fun p => p.text ≠ []) (fun c rest => ?_) text p mem
  exact List.cons_ne_nil _ _

/-- The tokens of a text are not empty. -/
theorem text_ne_of_mem_join {text : List Char} {p : Segment StateId}
    (mem : p ∈ Segment.join (b.segments text)) : p.text ≠ [] := by
  refine Segment.forall_join (fun q => text_ne_of_mem_segments) ?_ p mem
  intro q _ more text
  exact List.append_ne_nil_of_left_ne_nil more text

theorem length_join_segments_le (b : Blueprint) (text : List Char) :
    (Segment.join (b.segments text)).length ≤ text.length := by
  have le := Segment.length_le_flatMap (Segment.join (b.segments text)) fun p => text_ne_of_mem_join
  rwa [Segment.flatMap_join, flatMap_segments] at le

/-- The opening texts that end a token are keywords and operators. -/
structure Lexing (b : Blueprint) : Prop extends b.Formed where
  ends_exact : ∀ {path : List Char} {accept : Accept},
    b.forest.opening.accept? path = some accept → accept.endsToken = true →
      accept.kind.isExact = true

namespace Lexing

variable {place : Place} {c : Char}

theorem of_declarations (ds : List Declaration) : (RuleSet.ofDeclarations ds).blueprint.Lexing where
  toFormed := RuleSet.blueprint_formed _
  ends_exact := RuleSet.isExact_of_endsToken

theorem kindAt_opening (h : b.Lexing) (path : List Char) :
    match b.forest.opening.accept? path with
    | none => b.forest.kindAt (.opening path) = .word
    | some (.opens region) => b.forest.kindAt (.opening path) = region.kind
    | some _ => (b.forest.kindAt (.opening path)).isExact = true := by
  cases found : b.forest.opening.accept? path with
  | none => exact RuleForest.kindAt_opening found
  | some accept =>
      have kind : b.forest.kindAt (.opening path) = accept.kind := RuleForest.kindAt_opening found
      cases accept with
      | opens region => exact kind
      | exact _ | close _ => exact kind ▸ h.ends_exact found rfl

/-- A place where the scan reads on gathers text of some kind. -/
theorem kindAt_ne_empty (h : b.Lexing) (reads : place.consumes = true) :
    b.forest.kindAt place ≠ .empty := by
  cases place with
  | finish | startToken | endToken | flush => cases reads
  | word | separatorRun => exact TokenKind.noConfusion
  | body region | closing region path => exact region.kind_ne_empty
  | opening path =>
      have kind := h.kindAt_opening path
      split at kind
      · rw [kind]
        exact TokenKind.noConfusion
      · rw [kind]
        exact Region.kind_ne_empty _
      · intro empty
        rw [empty] at kind
        cases kind

/-- Word text is gathered at the word place and where an opening text is not complete. -/
theorem kindAt_eq_word (h : b.Lexing) (reads : place.consumes = true)
    (word : b.forest.kindAt place = .word) :
    place = .word ∨ ∃ path, place = .opening path ∧ b.forest.opening.accept? path = none := by
  cases place with
  | finish | startToken | endToken | flush => cases reads
  | word => exact .inl rfl
  | separatorRun => cases word
  | body region | closing region path => exact absurd word region.kind_ne_word
  | opening path =>
      have kind := h.kindAt_opening path
      split at kind
      · next none => exact .inr ⟨path, rfl, none⟩
      · rw [word] at kind
        exact absurd kind.symm (Region.kind_ne_word _)
      · rw [word] at kind
        cases kind

theorem onward_mem (h : b.Lexing) (mem : place ∈ b.forest.places) (ch : Option Char) :
    b.onward place ch ∈ b.forest.places := h.toFormed.target_mem mem _

/-- A token begins with a character. -/
theorem onward_startToken_reads (h : b.Lexing) (c : Char) :
    (b.onward .startToken (some c)).consumes = true := by
  have mem := b.forest.startToken_mem
  apply (h.toFormed.dispatch_target (.inl rfl) _).resolve_right
  intro finish
  have steers : ((b.row .startToken).target (b.alphabet.symbolOf (some c))).consumes = false := by
    rw [show (b.row .startToken).target _ = Place.finish from finish]
    rfl
  have way := h.toFormed.fallback_target mem steers
  rw [finish] at way
  generalize same : b.alphabet.symbolOf (some c) = s at way
  cases way with
  | atEnd starts => exact h.alphabet.symbolOf_ne_endOfStream c same

theorem onward_startToken_none (h : b.Lexing) : b.onward .startToken none = .finish := by
  have mem := b.forest.startToken_mem
  exact (h.toFormed.target_endOfStream mem).trans rfl

/-- The end of word text is found only at the end of the stream. -/
theorem onward_ne_endToken (h : b.Lexing) (mem : place ∈ b.forest.places)
    (reads : place.consumes = true) (word : b.forest.kindAt place = .word) (c : Char) :
    b.onward place (some c) ≠ .endToken := by
  intro ends
  have fallback : (b.row place).otherwise (b.alphabet.symbolOf (some c)) = .endToken := by
    rw [← h.toFormed.target_eq_otherwise mem (show (b.onward place (some c)).consumes = false by
      rw [ends]; rfl)]
    exact ends
  have row : (b.row place).otherwise (b.alphabet.symbolOf (some c)) =
      b.wordRow.otherwise (b.alphabet.symbolOf (some c)) := by
    obtain rfl | ⟨path, rfl, none⟩ := h.kindAt_eq_word reads word
    · rfl
    · rw [otherwise_row]
      simp only [none, openingRow]
  rw [row] at fallback
  simp only [wordRow, if_neg (h.alphabet.symbolOf_ne_endOfStream c)] at fallback
  split at fallback <;> cases fallback

/-- Where a segment ends: word text before a new token or at the end of the stream, any other
segment at the end of its token. -/
structure Stops (b : Blueprint) (m : Munch) : Prop where
  mem : m.place ∈ b.forest.places
  reads : m.place.consumes = true
  at_word : b.forest.kindAt m.place = .word →
    b.onward m.place m.rest.head? = .startToken ∨
      b.onward m.place m.rest.head? = .endToken ∧ m.rest = []
  at_other : b.forest.kindAt m.place ≠ .word → b.onward m.place m.rest.head? = .endToken

/-- Reading is left to the end of a token, or after word text to the start of one. -/
theorem onward_of_steers (h : b.Lexing) (mem : place ∈ b.forest.places)
    (reads : place.consumes = true) {ch : Option Char}
    (steers : (b.onward place ch).consumes = false) :
    b.onward place ch = .endToken ∨
      b.onward place ch = .startToken ∧ b.forest.kindAt place = .word := by
  have way := h.toFormed.fallback_target mem steers
  change b.Fallback place (b.alphabet.symbolOf ch) (b.onward place ch) at way
  generalize b.onward place ch = target at way steers
  generalize b.alphabet.symbolOf ch = s at way
  cases way with
  | finish | flush => cases reads
  | atEnd starts => obtain rfl | rfl := starts <;> cases reads
  | endToken => exact .inl rfl
  | startToken _ gathered _ => exact .inr ⟨rfl, gathered⟩
  | word | separatorRun | body => cases steers

theorem stops (h : b.Lexing) {m : Munch} (mem : m.place ∈ b.forest.places)
    (reads : m.place.consumes = true)
    (steers : (b.onward m.place m.rest.head?).consumes = false) : Stops b m := by
  refine ⟨mem, reads, fun word => ?_, fun other => ?_⟩
  · obtain ends | ⟨starts, -⟩ := h.onward_of_steers mem reads steers
    · refine .inr ⟨ends, ?_⟩
      cases left : m.rest with
      | nil => rfl
      | cons d rest =>
          rw [left] at ends
          exact absurd ends (h.onward_ne_endToken mem reads word d)
    · exact .inl starts
  · obtain ends | ⟨-, word⟩ := h.onward_of_steers mem reads steers
    · exact ends
    · exact absurd word other

theorem munch_stops (h : b.Lexing) (mem : place ∈ b.forest.places) (reads : place.consumes = true)
    (input : List Char) : Stops b (b.munch place input) := by
  induction input generalizing place with
  | nil =>
      exact h.stops (m := ⟨[], place, []⟩) mem reads (h.toFormed.target_endOfStream_steers mem)
  | cons c rest ih =>
      rw [munch_cons]
      split
      · next more =>
          obtain ⟨mem, reads, word, other⟩ := ih (h.onward_mem mem (some c)) more
          exact ⟨mem, reads, word, other⟩
      · next steers =>
          exact h.stops (m := ⟨[], place, c :: rest⟩) mem reads (Bool.eq_false_iff.mpr steers)

theorem first_stops (h : b.Lexing) (c : Char) (rest : List Char) : Stops b (b.first c rest) := by
  have begins := b.forest.startToken_mem
  obtain ⟨mem, reads, word, other⟩ :=
    h.munch_stops (h.onward_mem begins (some c)) (h.onward_startToken_reads c) rest
  exact ⟨mem, reads, word, other⟩

/-- What holds wherever reading stops holds of all segments. -/
theorem forall_segments (h : b.Lexing) {P : Segment StateId → Prop}
    (each : ∀ m : Munch, Stops b m → P (m.segment b)) (text : List Char) :
    ∀ p ∈ b.segments text, P p :=
  forall_mem_segments (fun c rest => each _ (h.first_stops c rest)) text

end Lexing

end Blueprint

end TableLexer
