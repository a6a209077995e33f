import Mathlib.Data.Option.Basic
import TableLexer.Tables

/-!
# What the check of stored tables ensures

The check looks at one row, one cell or one way of the steering states at a time. What it finds in
order is gathered here in one statement about cells: rows have one width and lead nowhere outside,
nothing is consumed at the end of the stream, only word text is handed over, and every way through
the steering states comes to an end.
-/

namespace TableLexer

namespace Tables

/-- The next state by unchecked rows. -/
def cell (rows : Array (Array StateId)) (state : StateId) (s : Symbol) : StateId :=
  ((rows[state]?).bind (·[s]?)).getD StateId.finish

/-- The width of the first row, which is to be the width of all. -/
def columns (rows : Array (Array StateId)) : Nat := ((rows[0]?).getD #[]).size

/-- Rows and kinds with which a scan is safe. -/
structure Shape (rows : Array (Array StateId)) (kinds : Array TokenKind) : Prop where
  six_le_size : 6 ≤ rows.size
  kinds_size : kinds.size = rows.size
  three_le_columns : 3 ≤ columns rows
  row_size : ∀ {state : StateId} {row : Array StateId}, rows[state]? = some row →
    row.size = columns rows
  cell_lt : ∀ {state : StateId} {s : Symbol}, state < rows.size → s < columns rows →
    cell rows state s < rows.size
  end_steers : ∀ {state : StateId}, state < rows.size →
    Control.ofState (cell rows state Symbol.endOfStream) ≠ .advance
  starts_after_word : ∀ {state : StateId} {s : Symbol}, state < rows.size → s < columns rows →
    cell rows state s = StateId.startToken → kinds[state]? = some .word
  reserved : ∀ {state : StateId} {kind : TokenKind}, StateId.reservedKinds[state]? = some kind →
    kinds[state]? = some kind
  finish_absorbs : ∀ {s : Symbol}, s < columns rows → cell rows StateId.finish s = StateId.finish
  settles : ∀ {s : Symbol} {state : StateId}, s < columns rows →
    state ∈ [StateId.startToken, StateId.endToken, StateId.flush] → settles rows s 3 state = true

variable {rows : Array (Array StateId)} {kinds : Array TokenKind} {state : StateId} {s : Symbol}

theorem cell_of_row {row : Array StateId} (found : rows[state]? = some row) :
    cell rows state s = (row[s]?).getD StateId.finish := by
  simp [cell, found]

/-- A condition on all entries of a row is one on its cells. -/
theorem forall_mem_row_iff {row : Array StateId} (found : rows[state]? = some row)
    {P : StateId → Prop} : (∀ target ∈ row, P target) ↔
      ∀ s, s < row.size → P (cell rows state s) := by
  constructor
  · intro h s inside
    rw [cell_of_row found, Array.getElem?_eq_getElem inside]
    exact h _ (Array.getElem_mem inside)
  · intro h target mem
    obtain ⟨s, inside, rfl⟩ := Array.mem_iff_getElem.mp mem
    have := h s inside
    rwa [cell_of_row found, Array.getElem?_eq_getElem inside] at this

/-- A row without a defect, by its cells. -/
theorem rowDefect?_eq_none_iff {width : Nat} (inside : state < rows.size) :
    rowDefect? rows kinds width state = none ↔
      rows[state].size = width ∧ (∀ s < width, cell rows state s < rows.size) ∧
      Control.ofState (cell rows state Symbol.endOfStream) ≠ .advance ∧
      ((kinds[state]?).getD .empty = .word ∨
        ∀ s < width, cell rows state s ≠ StateId.startToken) := by
  have found : rows[state]? = some rows[state] := Array.getElem?_eq_getElem inside
  generalize rows[state] = row at found
  have bounded := forall_mem_row_iff found (P := (· < rows.size))
  have start := forall_mem_row_iff found (P := (· ≠ StateId.startToken))
  simp only [rowDefect?, found, Option.getD_some, ← cell_of_row found]
  by_cases size : row.size = width
  · subst size
    rw [← bounded, ← start]
    have outside : row.toList.find? (rows.size ≤ ·) = none ↔
        ∀ target ∈ row, target < rows.size := by
      simp
    have starts : (∀ target ∈ row, target ≠ StateId.startToken) ↔ StateId.startToken ∉ row :=
      ⟨fun h mem => h _ mem rfl, fun h target mem same => h (same ▸ mem)⟩
    rw [starts]
    simp only [ne_eq, not_true_eq_false, if_false, true_and]
    split
    · next target bad =>
        have := mt outside.mpr (by simp [bad])
        simp [this]
    · next clear =>
        rw [and_iff_right (outside.mp clear)]
        split
        · next consumes => simp [consumes]
        · next stops =>
            split
            · next bad => simp [bad.1, bad.2]
            · next fine =>
                rw [not_and_or, not_not] at fine
                simp [stops, fine]
  · simp [size]

theorem reservedDefect?_eq_none_iff : reservedDefect? kinds = none ↔
    ∀ (state : StateId) (kind : TokenKind), StateId.reservedKinds[state]? = some kind →
      (kinds[state]?).getD TokenKind.empty = kind := by
  simp only [reservedDefect?, List.findSome?_eq_none_iff, Prod.forall,
    List.mk_mem_zipIdx_iff_getElem?, ite_eq_left_iff, reduceCtorEq, imp_false, not_not]
  exact ⟨fun h state kind => h kind state, fun h kind state => h state kind⟩

theorem controlDefect?_eq_none_iff {width : Nat} : controlDefect? rows width = none ↔
    ∀ s < width, ∀ state ∈ [StateId.startToken, StateId.endToken, StateId.flush],
      Tables.settles rows s 3 state = true := by
  simp only [controlDefect?, List.findSome?_eq_none_iff, List.mem_range, ite_eq_left_iff,
    reduceCtorEq, imp_false, not_not]

/-- The rows and kinds that pass the tests made once their numbers fit. -/
theorem shapeDefect?_eq_none_iff_of_sizes (six : 6 ≤ rows.size) (same : kinds.size = rows.size)
    (three : 3 ≤ columns rows) : shapeDefect? rows kinds = none ↔
      (∀ state < rows.size, rowDefect? rows kinds (columns rows) state = none) ∧
      reservedDefect? kinds = none ∧
      (∀ target ∈ (rows[StateId.finish]?).getD #[], target = StateId.finish) ∧
      controlDefect? rows (columns rows) = none := by
  simp only [shapeDefect?, if_neg (Nat.not_lt.mpr six), same, ne_eq, not_true_eq_false, if_false]
  rw [show ((rows[0]?).getD #[]).size = columns rows from rfl, if_neg (Nat.not_lt.mpr three)]
  simp only [Option.orElse_eq_none, List.findSome?_eq_none_iff, List.mem_range, ite_eq_left_iff,
    reduceCtorEq, imp_false, not_not, Array.all_eq_true', beq_iff_eq]

/-- Too few states, kinds or columns are found first. -/
theorem sizes_of_shapeDefect?_eq_none (clear : shapeDefect? rows kinds = none) :
    6 ≤ rows.size ∧ kinds.size = rows.size ∧ 3 ≤ columns rows := by
  rw [shapeDefect?] at clear
  rw [show ((rows[0]?).getD #[]).size = columns rows from rfl] at clear
  by_cases six : rows.size < 6
  · simp [six] at clear
  · by_cases same : kinds.size = rows.size
    · by_cases three : columns rows < 3
      · simp [six, same, three] at clear
      · exact ⟨Nat.not_lt.mp six, same, Nat.not_lt.mp three⟩
    · simp [six, same] at clear

theorem getD_kind_eq_iff {kind : TokenKind} (inside : state < kinds.size) :
    (kinds[state]?).getD .empty = kind ↔ kinds[state]? = some kind := by
  simp [Array.getElem?_eq_getElem inside]

/-- Rows and kinds without a defect are safe to scan with. -/
theorem Shape.of_shapeDefect? (clear : shapeDefect? rows kinds = none) : Shape rows kinds := by
  obtain ⟨six, same, three⟩ := sizes_of_shapeDefect?_eq_none clear
  have inside : 0 < rows.size := by omega
  have first : rows[StateId.finish]? = some rows[0] := Array.getElem?_eq_getElem _
  rw [shapeDefect?_eq_none_iff_of_sizes six same three, reservedDefect?_eq_none_iff,
    controlDefect?_eq_none_iff, first, Option.getD_some, forall_mem_row_iff first] at clear
  obtain ⟨defects, reserved, absorbs, settles⟩ := clear
  have row := fun state inside => (rowDefect?_eq_none_iff inside).mp (defects state inside)
  refine ⟨six, same, three, ?_, fun inside => (row _ inside).2.1 _,
    fun inside => (row _ inside).2.2.1, ?_, ?_, ?_, fun inside mem => settles _ inside _ mem⟩
  · intro state held found
    obtain ⟨inside, rfl⟩ := Array.getElem?_eq_some_iff.mp found
    exact (row state inside).1
  · intro state s inside column starts
    obtain word | never := (row state inside).2.2.2
    · exact (getD_kind_eq_iff (same ▸ inside)).mp word
    · exact absurd starts (never s column)
  · intro state kind found
    have low : state < 6 := (List.getElem?_eq_some_iff.mp found).1
    exact (getD_kind_eq_iff (Nat.lt_of_lt_of_le low (same ▸ six))).mp (reserved state kind found)
  · intro s column
    apply absorbs s
    rwa [(row 0 inside).1]

/-- In rows and kinds that are safe to scan with, no defect is found. -/
theorem Shape.shapeDefect?_eq_none (h : Shape rows kinds) : shapeDefect? rows kinds = none := by
  have six := h.six_le_size
  have inside : 0 < rows.size := by omega
  have first : rows[StateId.finish]? = some rows[0] := Array.getElem?_eq_getElem _
  rw [shapeDefect?_eq_none_iff_of_sizes h.six_le_size h.kinds_size h.three_le_columns,
    reservedDefect?_eq_none_iff, controlDefect?_eq_none_iff, first, Option.getD_some,
    forall_mem_row_iff first]
  refine ⟨?_, ?_, ?_, fun s column state mem => h.settles column mem⟩
  · intro state inside
    refine (rowDefect?_eq_none_iff inside).mpr ⟨h.row_size (Array.getElem?_eq_getElem inside),
      fun s column => h.cell_lt inside column, h.end_steers inside, ?_⟩
    by_cases word : kinds[state]? = some .word
    · exact .inl (by simp [word])
    · exact .inr fun s column starts => word (h.starts_after_word inside column starts)
  · intro state kind found
    simp [h.reserved found]
  · intro s column
    exact h.finish_absorbs (h.row_size first ▸ column)

/-- The check finds no defect exactly where a scan is safe. -/
theorem shapeDefect?_eq_none_iff : shapeDefect? rows kinds = none ↔ Shape rows kinds := by
  constructor
  · exact Shape.of_shapeDefect?
  · exact Shape.shapeDefect?_eq_none

theorem alphabetDefect?_eq_none_iff {alphabet : Alphabet} {width : Nat} :
    alphabetDefect? alphabet width = none ↔ alphabet.size ≤ width ∧
      ∀ (c : Char) (s : Symbol), alphabet.symbols[c]? = some s →
        s < width ∧ s ≠ Symbol.endOfStream := by
  rw [alphabetDefect?]
  split
  · next large => simp [Nat.not_le.mpr large]
  · next fits =>
      simp only [Option.orElse_eq_none, Option.map_eq_none_iff, List.find?_eq_none, Prod.forall,
        Alphabet.pairs, Std.ExtTreeMap.mem_toList_iff_getElem?_eq_some, decide_eq_true_eq,
        beq_iff_eq, Nat.not_le, Nat.not_lt.mp fits, true_and]
      exact ⟨fun h c s found => ⟨h.1 c s found, h.2 c s found⟩,
        fun h => ⟨fun c s found => (h c s found).1, fun c s found => (h c s found).2⟩⟩

theorem lexemeDefect?_eq_none_iff {lexemes : Std.ExtTreeMap String StateId} :
    lexemeDefect? kinds lexemes = none ↔ ∀ (text : String) (state : StateId),
      lexemes[text]? = some state → (kinds[state]?).any TokenKind.isExact = true := by
  simp only [lexemeDefect?, Option.map_eq_none_iff, List.find?_eq_none, Prod.forall,
    Std.ExtTreeMap.mem_toList_iff_getElem?_eq_some, Bool.not_eq_true', Bool.not_eq_false]

section Maps

variable {α β : Type} [Ord α] [Std.TransOrd α] [Std.LawfulEqOrd α] [BEq α] [LawfulBEq α]

/-- A map of pairs with distinct keys holds these pairs. -/
theorem getElem?_ofList_eq_some_iff {pairs : List (α × β)} {k : α} {v : β}
    (distinct : pairs.Pairwise fun a b => ¬ compare a.1 b.1 = .eq) :
    (Std.ExtTreeMap.ofList pairs)[k]? = some v ↔ (k, v) ∈ pairs := by
  have held : ∀ {w : β}, (k, w) ∈ pairs → (Std.ExtTreeMap.ofList pairs)[k]? = some w := fun mem =>
    Std.ExtTreeMap.getElem?_ofList_of_mem Std.ReflCmp.compare_self distinct mem
  refine ⟨fun found => ?_, held⟩
  by_cases known : ∃ w, (k, w) ∈ pairs
  · obtain ⟨w, mem⟩ := known
    rw [held mem] at found
    exact Option.some.inj found ▸ mem
  · rw [Std.ExtTreeMap.getElem?_ofList_of_contains_eq_false] at found
    · cases found
    · rw [Bool.eq_false_iff, ne_eq, List.contains_iff_mem, List.mem_map]
      rintro ⟨⟨k', w⟩, mem, rfl⟩
      exact known ⟨w, mem⟩

/-- A map is the one of its own pairs. -/
theorem ofList_toList (m : Std.ExtTreeMap α β) : Std.ExtTreeMap.ofList m.toList = m := by
  refine Std.ExtTreeMap.ext_getElem? fun k => Option.ext fun v => ?_
  rw [getElem?_ofList_eq_some_iff m.distinct_keys_toList,
    Std.ExtTreeMap.mem_toList_iff_getElem?_eq_some]

end Maps

/-- Parts without a defect are put together as they are. -/
theorem ofParts_eq_ok_iff {alphabet : Alphabet} {lexemes : Std.ExtTreeMap String StateId}
    {t : Tables} : ofParts alphabet rows kinds lexemes = .ok t ↔
      defect? alphabet rows kinds lexemes = none ∧
        t = ⟨⟨alphabet.symbols, max (columns rows) Symbol.firstFree, ∅⟩, rows, kinds, lexemes⟩ := by
  unfold ofParts Alphabet.ofPairs Alphabet.pairs
  rw [ofList_toList]
  split
  · next defect found => simp [found]
  · next clear => simp [clear, eq_comm, columns]

theorem defect?_eq_none_iff {alphabet : Alphabet} {lexemes : Std.ExtTreeMap String StateId} :
    defect? alphabet rows kinds lexemes = none ↔ Shape rows kinds ∧
      alphabet.size ≤ columns rows ∧
      (∀ (c : Char) (s : Symbol), alphabet.symbols[c]? = some s →
        s < columns rows ∧ s ≠ Symbol.endOfStream) ∧
      ∀ (text : String) (state : StateId), lexemes[text]? = some state →
        (kinds[state]?).any TokenKind.isExact = true := by
  rw [defect?]
  rw [show ((rows[0]?).getD #[]).size = columns rows from rfl]
  simp only [Option.orElse_eq_none, shapeDefect?_eq_none_iff, alphabetDefect?_eq_none_iff,
    lexemeDefect?_eq_none_iff, and_assoc]

/-- Tables with which a scan is safe: their rows and kinds fit, and every character has a column. -/
structure Sound (t : Tables) : Prop extends Shape t.rows t.kinds where
  width_eq : t.width = columns t.rows
  symbol_lt : ∀ {c : Char} {s : Symbol}, t.alphabet.symbols[c]? = some s → s < t.width

/-- Parts that pass the check are sound tables. -/
theorem Sound.of_ofParts {alphabet : Alphabet} {lexemes : Std.ExtTreeMap String StateId}
    {t : Tables} (h : ofParts alphabet rows kinds lexemes = .ok t) : t.Sound := by
  obtain ⟨clear, rfl⟩ := ofParts_eq_ok_iff.mp h
  obtain ⟨shape, -, symbols, -⟩ := defect?_eq_none_iff.mp clear
  have width : max (columns rows) Symbol.firstFree = columns rows :=
    Nat.max_eq_left shape.three_le_columns
  refine ⟨shape, width, fun {c s} found => ?_⟩
  show s < max (columns rows) Symbol.firstFree
  rw [width]
  exact (symbols c s found).1

namespace Sound

variable {t : Tables}

theorem symbolOf_lt (h : t.Sound) (c : Option Char) : t.alphabet.symbolOf c < t.width := by
  have three : 2 < t.width := h.width_eq ▸ h.three_le_columns
  match c with
  | none => exact Nat.lt_of_le_of_lt (Nat.zero_le _) three
  | some c =>
      cases found : t.alphabet.symbols[c]? with
      | none =>
          have wild : t.alphabet.symbolOf (some c) = 1 := by
            simp [Alphabet.symbolOf, found, Symbol.wildcard]
          rw [wild]
          exact Nat.lt_of_succ_lt three
      | some s =>
          rw [Alphabet.symbolOf, found, Option.getD_some]
          exact h.symbol_lt found

theorem next_lt (h : t.Sound) (inside : state < t.rows.size) (c : Option Char) :
    t.next state (t.alphabet.symbolOf c) < t.rows.size :=
  h.cell_lt inside (h.width_eq ▸ h.symbolOf_lt c)

/-- Nothing is read on at the end of the stream. -/
theorem next_end (h : t.Sound) (inside : state < t.rows.size) :
    Control.ofState (t.next state (t.alphabet.symbolOf none)) ≠ .advance := h.end_steers inside

/-- The kind of a state for which the table of kinds has an entry. -/
theorem kindOf_eq (h : t.Sound) {kind : TokenKind}
    (listed : StateId.reservedKinds[state]? = some kind) : t.kindOf state = kind := by
  rw [kindOf, h.reserved listed, Option.getD_some]

theorem kindOf_word (h : t.Sound) : t.kindOf StateId.word = .word := h.kindOf_eq rfl

/-- Only from word text does a way lead to the start of a token. -/
theorem kindOf_of_next_startToken (h : t.Sound) (inside : state < t.rows.size) {c : Option Char}
    (starts : t.next state (t.alphabet.symbolOf c) = StateId.startToken) :
    t.kindOf state = .word := by
  rw [kindOf, h.starts_after_word inside (h.width_eq ▸ h.symbolOf_lt c) starts, Option.getD_some]

end Sound

end Tables

end TableLexer
