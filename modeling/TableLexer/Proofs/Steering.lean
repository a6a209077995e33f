import TableLexer.Proofs.Checked
import TableLexer.Proofs.Ownership

/-!
# Steering states of compiled tables

Rows are overlaid with edges to the children of a trie node. An edge never leads to a steering
state and never stands in the column of the end of the stream. So where a row steers, and what it
does at the end of the stream, is decided by the rule it starts from, however the tries overlap
and whichever characters share a column. From this follow the three guarantees about the reserved
states, and that the check of stored tables finds nothing wrong with compiled ones.
-/

namespace TableLexer

/-- A row leads along an edge, or where it leads without edges. -/
theorem Row.target_cases (row : Row) (s : Symbol) :
    (∃ edge ∈ row.edges, edge.1 = s ∧ row.target s = edge.2) ∨
      (∀ edge ∈ row.edges, edge.1 ≠ s) ∧ row.target s = row.otherwise s := by
  cases found : row.edges.reverse.lookup s with
  | none =>
      refine .inr ⟨fun edge mem same => ?_, by simp [target, found]⟩
      have := List.lookup_eq_none_iff.mp found edge (List.mem_reverse.mpr mem)
      simp [same] at this
  | some place =>
      obtain ⟨front, back, split, -⟩ := List.lookup_eq_some_iff.mp found
      have mem : (s, place) ∈ row.edges.reverse := by simp [split]
      exact .inl ⟨_, List.mem_reverse.mp mem, rfl, by simp [target, found]⟩

namespace Blueprint

/-- The tries and the alphabet are as registrations leave them. -/
structure Formed (b : Blueprint) : Prop where
  forest : b.forest.Formed
  alphabet : b.alphabet.InRange

variable {b : Blueprint} {place : Place} {s : Symbol}

theorem mem_edges {t : RuleTrie} {path : List Char} {child : List Char → Place}
    {edge : Symbol × Place} : edge ∈ b.edges t path child ↔
      ∃ c, t.contains (path ++ [c]) = true ∧
        edge = (b.alphabet.symbolOf (some c), child (path ++ [c])) := by
  simp only [edges, List.mem_map, RuleTrie.mem_children_iff, eq_comm]

/-- The edges of a row lead to places where the scan reads on, on characters only. -/
def Clear (b : Blueprint) (edges : List (Symbol × Place)) : Prop :=
  ∀ edge ∈ edges, edge.1 ≠ Symbol.endOfStream ∧ edge.2.consumes = true ∧ edge.2 ∈ b.forest.places

theorem Formed.clear_opening (h : b.Formed) (path : List Char) :
    b.Clear (b.edges b.forest.opening path .opening) := by
  intro edge mem
  obtain ⟨c, held, rfl⟩ := mem_edges.mp mem
  exact ⟨h.alphabet.symbolOf_ne_endOfStream c, rfl, RuleForest.mem_places.mpr held⟩

theorem Formed.clear_closing (h : b.Formed) {region : Region} (mem : region ∈ b.forest.regions)
    (path : List Char) : b.Clear (b.edges (b.forest.closing region) path (.closing region)) := by
  intro edge held
  obtain ⟨c, child, rfl⟩ := mem_edges.mp held
  exact ⟨h.alphabet.symbolOf_ne_endOfStream c, rfl, RuleForest.mem_places.mpr ⟨mem, child⟩⟩

theorem Clear.append {front back : List (Symbol × Place)} (first : b.Clear front)
    (second : b.Clear back) : b.Clear (front ++ back) := by
  intro edge mem
  obtain old | new := List.mem_append.mp mem
  · exact first edge old
  · exact second edge new

theorem clear_nil (b : Blueprint) : b.Clear [] := fun _ mem => by cases mem

theorem Formed.clear_openingRow (h : b.Formed) (path : List Char) :
    b.Clear (b.openingRow (b.forest.opening.accept? path)).edges := by
  cases found : b.forest.opening.accept? path with
  | none => exact b.clear_nil
  | some accept =>
      cases accept with
      | exact kind | close kind => exact b.clear_nil
      | opens region => exact h.clear_closing (h.forest.opens_mem found) []

theorem Formed.clear_closingRow (h : b.Formed) {region : Region} (mem : region ∈ b.forest.regions)
    (path : List Char) : b.Clear (b.closingRow region path).edges := by
  rw [closingRow]
  split
  · exact b.clear_nil
  · exact h.clear_closing mem []

/-- All edges of the automaton are clear. -/
theorem Formed.clear_row (h : b.Formed) (mem : place ∈ b.forest.places) :
    b.Clear (b.row place).edges := by
  cases place with
  | finish | endToken | word | separatorRun => exact b.clear_nil
  | startToken | flush => exact h.clear_opening []
  | opening path => exact (h.clear_openingRow path).append (h.clear_opening path)
  | body region => exact h.clear_closing (RuleForest.mem_places.mp mem) []
  | closing region path =>
      have known := (RuleForest.mem_places.mp mem).1
      exact (h.clear_closingRow known path).append (h.clear_closing known path)

/-- A row steers only where it does so without edges. -/
theorem Formed.target_eq_otherwise (h : b.Formed) (mem : place ∈ b.forest.places)
    (steers : ((b.row place).target s).consumes = false) :
    (b.row place).target s = (b.row place).otherwise s := by
  obtain ⟨edge, held, -, same⟩ | ⟨-, same⟩ := (b.row place).target_cases s
  · rw [same, (h.clear_row mem edge held).2.1] at steers
    cases steers
  · exact same

/-- No edge stands in the column of the end of the stream. -/
theorem Formed.target_endOfStream (h : b.Formed) (mem : place ∈ b.forest.places) :
    (b.row place).target Symbol.endOfStream = (b.row place).otherwise Symbol.endOfStream := by
  obtain ⟨edge, held, same, -⟩ | ⟨-, same⟩ := (b.row place).target_cases Symbol.endOfStream
  · exact absurd same (h.clear_row mem edge held).1
  · exact same

/-- Where a row leads without edges. -/
theorem otherwise_row (b : Blueprint) (place : Place) (s : Symbol) : (b.row place).otherwise s =
    match place with
    | .finish => .finish
    | .startToken | .flush => b.dispatchRow.otherwise s
    | .endToken => .flush
    | .word => b.wordRow.otherwise s
    | .separatorRun => b.separatorRow.otherwise s
    | .opening path => (b.openingRow (b.forest.opening.accept? path)).otherwise s
    | .body region => (b.bodyRow region).otherwise s
    | .closing region path => (b.closingRow region path).otherwise s := by
  cases place <;> rfl

/-- Without edges, a row leads to a known place, and at the end of the stream to a steering one.
What steers otherwise is the start of a token after word text and the end of a token. -/
inductive Fallback (b : Blueprint) : Place → Symbol → Place → Prop
  | finish (s : Symbol) : b.Fallback .finish s .finish
  | atEnd {origin : Place} (starts : origin = .startToken ∨ origin = .flush) :
      b.Fallback origin Symbol.endOfStream .finish
  | flush (s : Symbol) : b.Fallback .endToken s .flush
  | endToken {origin : Place} (reads : origin.consumes = true) (s : Symbol) :
      b.Fallback origin s .endToken
  | startToken {origin : Place} {s : Symbol} (reads : origin.consumes = true)
      (gathered : b.forest.kindAt origin = .word) (more : s ≠ Symbol.endOfStream) :
      b.Fallback origin s .startToken
  | word (origin : Place) {s : Symbol} (more : s ≠ Symbol.endOfStream) : b.Fallback origin s .word
  | separatorRun (origin : Place) {s : Symbol} (more : s ≠ Symbol.endOfStream) :
      b.Fallback origin s .separatorRun
  | body (origin : Place) {s : Symbol} {region : Region} (more : s ≠ Symbol.endOfStream)
      (known : region ∈ b.forest.regions) : b.Fallback origin s (.body region)

theorem fallback_dispatchRow (starts : place = .startToken ∨ place = .flush) :
    b.Fallback place s (b.dispatchRow.otherwise s) := by
  simp only [dispatchRow]
  split
  · next same => exact same ▸ .atEnd starts
  · next apart =>
      split
      · exact .separatorRun _ apart
      · exact .word _ apart

theorem fallback_wordRow (reads : place.consumes = true) (word : b.forest.kindAt place = .word) :
    b.Fallback place s (b.wordRow.otherwise s) := by
  simp only [wordRow]
  split
  · exact .endToken reads s
  · next apart =>
      split
      · exact .startToken reads word apart
      · exact .word _ apart

theorem fallback_bodyRow (reads : place.consumes = true) {region : Region}
    (mem : region ∈ b.forest.regions) : b.Fallback place s ((b.bodyRow region).otherwise s) := by
  simp only [bodyRow]
  split
  · exact .endToken reads s
  · next apart => exact .body _ apart mem

theorem Formed.fallback_row (h : b.Formed) (mem : place ∈ b.forest.places) (s : Symbol) :
    b.Fallback place s ((b.row place).otherwise s) := by
  rw [otherwise_row]
  cases place with
  | finish => exact .finish s
  | startToken => exact fallback_dispatchRow (.inl rfl)
  | flush => exact fallback_dispatchRow (.inr rfl)
  | endToken => exact .flush s
  | word => exact fallback_wordRow rfl rfl
  | separatorRun =>
      simp only [separatorRow]
      split
      · exact .endToken rfl s
      · next apart =>
          split
          · exact .separatorRun _ apart
          · exact .endToken rfl s
  | opening path =>
      have reads : (Place.opening path).consumes = true := rfl
      show b.Fallback _ s ((b.openingRow (b.forest.opening.accept? path)).otherwise s)
      cases found : b.forest.opening.accept? path with
      | none => exact fallback_wordRow reads (RuleForest.kindAt_opening found)
      | some accept =>
          cases accept with
          | exact kind | close kind => exact .endToken reads s
          | opens region => exact fallback_bodyRow reads (h.forest.opens_mem found)
  | body region => exact fallback_bodyRow rfl (RuleForest.mem_places.mp mem)
  | closing region path =>
      simp only [closingRow]
      split
      · exact .endToken rfl s
      · exact fallback_bodyRow rfl (RuleForest.mem_places.mp mem).1

theorem Fallback.mem_places {target : Place} (h : b.Fallback place s target) :
    target ∈ b.forest.places := by
  cases h with
  | body _ _ known => exact RuleForest.mem_places.mpr known
  | _ => exact b.forest.mem_places_of_reserved (by decide)

/-- At the end of the stream nothing is read on. -/
theorem Fallback.steers {target : Place} (h : b.Fallback place Symbol.endOfStream target) :
    target.consumes = false := by
  cases h with
  | startToken _ _ more | word _ more | separatorRun _ more | body _ more => exact absurd rfl more
  | _ => rfl

/-- No row leads out of the automaton. -/
theorem Formed.target_mem (h : b.Formed) (mem : place ∈ b.forest.places) (s : Symbol) :
    (b.row place).target s ∈ b.forest.places := by
  obtain ⟨edge, held, -, same⟩ | ⟨-, same⟩ := (b.row place).target_cases s
  · exact same ▸ (h.clear_row mem edge held).2.2
  · exact same ▸ (h.fallback_row mem s).mem_places

theorem Formed.fallback_target (h : b.Formed) (mem : place ∈ b.forest.places)
    (steers : ((b.row place).target s).consumes = false) :
    b.Fallback place s ((b.row place).target s) := by
  rw [h.target_eq_otherwise mem steers]
  exact h.fallback_row mem s

theorem Formed.target_endOfStream_steers (h : b.Formed) (mem : place ∈ b.forest.places) :
    ((b.row place).target Symbol.endOfStream).consumes = false := by
  rw [h.target_endOfStream mem]
  exact (h.fallback_row mem _).steers

/-- A new token begins by reading on, or the stream ends. -/
theorem Formed.dispatch_target (h : b.Formed) (starts : place = .startToken ∨ place = .flush)
    (s : Symbol) : ((b.row place).target s).consumes = true ∨ (b.row place).target s = .finish := by
  have mem : place ∈ b.forest.places := by
    obtain rfl | rfl := starts <;> exact b.forest.mem_places_of_reserved (by decide)
  cases reads : ((b.row place).target s).consumes with
  | true => exact .inl rfl
  | false =>
      have way := h.fallback_target mem reads
      obtain rfl | rfl := starts <;> generalize (b.row _).target s = target at way reads ⊢ <;>
        cases way <;> first | exact .inr rfl | contradiction

end Blueprint

namespace Tables

/-- The reserved states are entered where compiled tables enter them: the end from itself and at the
end of the stream, the flush after the end of a token, and the start of a token after word text. -/
structure Orderly (t : Tables) : Prop where
  finish_from : ∀ {state : StateId} {s : Symbol}, state < t.stateCount → s < t.width →
    t.next state s = StateId.finish → state = StateId.finish ∨
      s = Symbol.endOfStream ∧ (state = StateId.startToken ∨ state = StateId.flush)
  flush_from : ∀ {state : StateId} {s : Symbol}, state < t.stateCount → s < t.width →
    t.next state s = StateId.flush → state = StateId.endToken
  startToken_from : ∀ {state : StateId} {s : Symbol}, state < t.stateCount → s < t.width →
    t.next state s = StateId.startToken →
      Control.ofState state = .advance ∧ t.kindOf state = .word

end Tables

namespace Blueprint

variable {b : Blueprint} {place : Place} {s : Symbol}

theorem size_rows (b : Blueprint) : (Tables.ofBlueprint b).rows.size = b.forest.places.length := by
  simp [Tables.ofBlueprint, automaton]

theorem stateCount_ofBlueprint (b : Blueprint) :
    (Tables.ofBlueprint b).stateCount = b.forest.places.length := by
  simp [Tables.stateCount, Tables.ofBlueprint, automaton]

theorem size_row {state : StateId} {row : Array StateId}
    (found : (Tables.ofBlueprint b).rows[state]? = some row) : row.size = b.alphabet.size := by
  simp only [Tables.ofBlueprint, automaton, List.getElem?_toArray, List.getElem?_map,
    Option.map_eq_some_iff] at found
  obtain ⟨place, -, rfl⟩ := found
  simp [Row.numbered]

theorem columns_rows (b : Blueprint) :
    Tables.columns (Tables.ofBlueprint b).rows = (Tables.ofBlueprint b).width := by
  have first : (Tables.ofBlueprint b).rows[0]? =
      some ((b.row .finish).numbered b.forest.places b.alphabet.size) := rfl
  rw [Tables.columns, first, Option.getD_some]
  exact size_row first

theorem kinds_number (mem : place ∈ b.forest.places) :
    (Tables.ofBlueprint b).kinds[b.number place]? = some (b.forest.kindAt place) := by
  simp only [Tables.ofBlueprint, automaton, List.getElem?_toArray, List.getElem?_map,
    places_number mem, Option.map_some]

/-- A number of a steering place is reserved for it. -/
theorem number_eq_iff {target : Place} (known : target ∈ b.forest.places) {other : Place}
    {state : StateId} (reserved : b.number other = state) :
    b.number target = state ↔ target = other := by
  rw [← reserved, number_inj known]

/-- The guarantees about the reserved states of compiled tables. -/
theorem Formed.orderly (h : b.Formed) : (Tables.ofBlueprint b).Orderly := by
  have way : ∀ (target : Place) {state : StateId} {s : Symbol} {reserved : StateId},
      b.number target = reserved → target.consumes = false →
      state < (Tables.ofBlueprint b).stateCount → s < (Tables.ofBlueprint b).width →
      (Tables.ofBlueprint b).next state s = reserved →
      ∃ place ∈ b.forest.places, b.number place = state ∧ b.Fallback place s target := by
    intro target state s reserved same steers inside column next
    obtain ⟨place, mem, rfl⟩ := exists_number_eq h.forest (stateCount_ofBlueprint b ▸ inside)
    rw [next_number mem column, number_eq_iff (h.target_mem mem s) same] at next
    exact ⟨place, mem, rfl, next ▸ h.fallback_target mem (next ▸ steers)⟩
  refine ⟨?_, ?_, ?_⟩
  · intro state s inside column next
    obtain ⟨place, mem, rfl, way⟩ := way .finish rfl rfl inside column next
    cases way with
    | finish => exact .inl rfl
    | atEnd starts => exact .inr ⟨rfl, starts.imp (congrArg b.number) (congrArg b.number)⟩
  · intro state s inside column next
    obtain ⟨place, mem, rfl, way⟩ := way .flush rfl rfl inside column next
    cases way
    rfl
  · intro state s inside column next
    obtain ⟨place, mem, rfl, way⟩ := way .startToken rfl rfl inside column next
    cases way with
    | startToken reads gathered more =>
        exact ⟨control_number_of_consumes reads, (kindOf_number mem).trans gathered⟩

theorem control_number_of_steers (steers : place.consumes = false) :
    Control.ofState (b.number place) ≠ .advance := by
  rw [control_number]
  cases place <;> first | exact Control.noConfusion | cases steers

theorem settles_of_advance {rows : Array (Array StateId)} {state : StateId} {n : Nat}
    (stops : Control.ofState state = .advance ∨ Control.ofState state = .finish) :
    Tables.settles rows s n state = true := by
  unfold Tables.settles
  obtain stop | stop := stops <;> rw [stop]

/-- Steering states of compiled tables come to an end: the end of a token leads to the flush, and
the flush and the start lead to a place that reads on or finishes. -/
theorem Formed.settles (h : b.Formed) (column : s < b.alphabet.size) {state : StateId}
    (steers : state ∈ [StateId.startToken, StateId.endToken, StateId.flush]) :
    Tables.settles (Tables.ofBlueprint b).rows s 3 state = true := by
  have dispatched : ∀ {place : Place} {n : Nat}, (place = .startToken ∨ place = .flush) →
      Tables.settles (Tables.ofBlueprint b).rows s n
        ((Tables.ofBlueprint b).next (b.number place) s) = true := by
    intro place n starts
    have mem : place ∈ b.forest.places := by
      obtain rfl | rfl := starts <;> exact b.forest.mem_places_of_reserved (by decide)
    rw [next_number mem column]
    apply settles_of_advance
    obtain reads | finish := h.dispatch_target starts s
    · exact .inl (control_number_of_consumes reads)
    · exact .inr (finish ▸ rfl)
  have ended : (Tables.ofBlueprint b).next (b.number .endToken) s = StateId.flush :=
    next_number (b.forest.mem_places_of_reserved (by decide)) column
  simp only [List.mem_cons, List.not_mem_nil, or_false] at steers
  obtain rfl | rfl | rfl := steers
  · exact dispatched (.inl rfl)
  · show Tables.settles _ s 2 ((Tables.ofBlueprint b).next (b.number .endToken) s) = true
    rw [ended]
    exact dispatched (.inr rfl)
  · exact dispatched (.inr rfl)

/-- The check of stored tables finds nothing wrong with compiled ones. -/
theorem Formed.shape (h : b.Formed) :
    Tables.Shape (Tables.ofBlueprint b).rows (Tables.ofBlueprint b).kinds := by
  have placed : ∀ {state : StateId}, state < (Tables.ofBlueprint b).rows.size →
      ∃ place ∈ b.forest.places, b.number place = state := fun inside =>
    exists_number_eq h.forest (size_rows b ▸ inside)
  refine ⟨?_, ?_, columns_rows b ▸ h.alphabet.size_ge, fun found => columns_rows b ▸ size_row found,
    ?_, ?_, ?_, ?_, ?_, ?_⟩
  · rw [size_rows, RuleForest.length_places]
    omega
  · rw [size_rows]
    exact stateCount_ofBlueprint b
  · intro state s inside column
    obtain ⟨place, mem, rfl⟩ := placed inside
    rw [columns_rows] at column
    rw [size_rows]
    exact (next_number mem column).trans_lt (number_lt (h.target_mem mem s))
  · intro state inside
    obtain ⟨place, mem, rfl⟩ := placed inside
    rw [show Tables.cell (Tables.ofBlueprint b).rows _ _ = _ from
      next_number mem h.alphabet.endOfStream_lt_size]
    exact control_number_of_steers (h.target_endOfStream_steers mem)
  · intro state s inside column starts
    obtain ⟨place, mem, rfl⟩ := placed inside
    have gathered := (h.orderly.startToken_from (by rwa [stateCount_ofBlueprint, ← size_rows])
      (columns_rows b ▸ column) starts).2
    rw [kindOf_number mem] at gathered
    rw [kinds_number mem, gathered]
  · intro state kind listed
    have front : b.forest.places.map b.forest.kindAt = StateId.reservedKinds ++
        (b.forest.opening.preorder.map (fun node => Place.opening node.path) ++
          b.forest.regions.flatMap b.forest.regionPlaces).map b.forest.kindAt := by
      rw [RuleForest.places, List.append_assoc, List.map_append]
      rfl
    show (b.forest.places.map b.forest.kindAt).toArray[state]? = some kind
    have inside := (List.getElem?_eq_some_iff.mp listed).1
    rw [List.getElem?_toArray, front, List.getElem?_append_left inside, listed]
  · intro s column
    have known := b.forest.mem_places_of_reserved (show Place.finish ∈ _ by decide)
    rw [columns_rows] at column
    exact next_number known column
  · intro s state column steers
    rw [columns_rows] at column
    exact h.settles column steers

end Blueprint

end TableLexer
