import TableLexer.Proofs.Segments

/-!
# Places spell texts where case counts

Where case counts, every character of a rule has a column that no other character has. An edge of
the automaton is then followed on one character only, and the place that is reached spells what
has been read. So the rows can be read as rules about characters, without symbols.
-/

namespace TableLexer

theorem Row.target_of_edges_nil (row : Row) (plain : row.edges = []) (s : Symbol) :
    row.target s = row.otherwise s := by
  rw [target, plain]
  rfl

/-- Edges that agree on a symbol decide where it leads. -/
theorem Row.target_withEdges_of_mem {row : Row} {edges : List (Symbol × Place)} {s : Symbol}
    {place : Place} (mem : (s, place) ∈ edges)
    (only : ∀ other, (s, other) ∈ edges → other = place) :
    (row.withEdges edges).target s = place := by
  have found : edges.reverse.lookup s = some place := by
    cases edge : edges.reverse.lookup s with
    | none =>
        have apart := List.lookup_eq_none_iff.mp edge _ (List.mem_reverse.mpr mem)
        simp at apart
    | some other =>
        obtain ⟨front, back, split, -⟩ := List.lookup_eq_some_iff.mp edge
        have held : (s, other) ∈ edges := by
          rw [← List.mem_reverse, split]
          simp
        rw [only other held]
  rw [target, withEdges, List.reverse_append, List.lookup_append, found]
  rfl

/-- Edges leave alone what none of them is for. -/
theorem Row.target_withEdges_of_not_mem {row : Row} {edges : List (Symbol × Place)} {s : Symbol}
    (none : ∀ place, (s, place) ∉ edges) : (row.withEdges edges).target s = row.target s := by
  have missing : edges.reverse.lookup s = .none := by
    rw [List.lookup_eq_none_iff]
    rintro ⟨other, place⟩ mem
    rw [bne_iff_ne]
    rintro rfl
    exact none place (List.mem_reverse.mp mem)
  rw [target, withEdges, List.reverse_append, List.lookup_append, missing]
  rfl

namespace Blueprint

variable {b : Blueprint}

/-- Every character of a trie has a column that no other character has. -/
def Spells (b : Blueprint) (t : RuleTrie) : Prop :=
  ∀ (path : List Char) (c : Char), t.contains (path ++ [c]) = true →
    ∀ d, b.alphabet.symbolOf (some d) = b.alphabet.symbolOf (some c) ↔ d = c

/-- Edges to the children of a node lead there on the characters of the children, and only on
these. -/
theorem Spells.target_withEdges {t : RuleTrie} (h : b.Spells t) (row : Row) (path : List Char)
    (child : List Char → Place) (c : Char) :
    (row.withEdges (b.edges t path child)).target (b.alphabet.symbolOf (some c)) =
      if t.contains (path ++ [c]) then child (path ++ [c])
      else row.target (b.alphabet.symbolOf (some c)) := by
  by_cases held : t.contains (path ++ [c]) = true
  · rw [if_pos held]
    refine Row.target_withEdges_of_mem (mem_edges.mpr ⟨c, held, rfl⟩) fun other mem => ?_
    obtain ⟨d, held', pair⟩ := mem_edges.mp mem
    obtain ⟨column, rfl⟩ := Prod.mk.inj pair
    rw [(h path d held' c).mp column]
  · rw [if_neg held]
    refine Row.target_withEdges_of_not_mem fun place mem => held ?_
    obtain ⟨d, held', pair⟩ := mem_edges.mp mem
    obtain rfl := (h path d held' c).mp (Prod.mk.inj pair).1
    exact held'

/-- Whether a character separates words by the alphabet. -/
def separates (b : Blueprint) (c : Char) : Bool :=
  b.alphabet.isSeparator (b.alphabet.symbolOf (some c))

/-- A run of separators goes on with separators and ends with any other character. -/
theorem Formed.onward_separatorRun (h : b.Formed) (c : Char) :
    b.onward .separatorRun (some c) = if b.separates c then .separatorRun else .endToken := by
  rw [onward, row, Row.target_of_edges_nil _ rfl]
  exact if_neg (h.alphabet.symbolOf_ne_endOfStream c)

/-- The columns of an alphabet tell the characters of the tries from all others, and separators from
what separates nothing. -/
structure Legible (b : Blueprint) (declared : List Char) : Prop extends b.Formed where
  opening : b.Spells b.forest.opening
  closing : ∀ region, b.Spells (b.forest.closing region)
  separates_iff : ∀ c, b.alphabet.isSeparator (b.alphabet.symbolOf (some c)) = true ↔ c ∈ declared

namespace Legible

variable {declared : List Char} {place : Place}

theorem isSeparator_eq (h : b.Legible declared) (c : Char) :
    b.alphabet.isSeparator (b.alphabet.symbolOf (some c)) = declared.contains c := by
  rw [Bool.eq_iff_iff, h.separates_iff, List.contains_iff_mem]

theorem contains_firstSymbols (h : b.Legible declared) (c : Char) :
    b.firstSymbols.contains (b.alphabet.symbolOf (some c)) = b.forest.opening.contains [c] := by
  rw [Bool.eq_iff_iff, List.contains_iff_mem, firstSymbols, List.mem_map]
  constructor
  · rintro ⟨d, mem, same⟩
    have held := RuleTrie.mem_children_iff.mp mem
    obtain rfl := (h.opening [] d held c).mp same.symm
    exact held
  · intro held
    exact ⟨c, RuleTrie.mem_children_iff.mpr held, rfl⟩

theorem onward_startToken (h : b.Legible declared) (c : Char) : b.onward .startToken (some c) =
    if b.forest.opening.contains [c] then .opening [c]
    else if declared.contains c then .separatorRun
    else .word := by
  have dispatch := h.opening.target_withEdges { b.dispatchRow with edges := [] } [] .opening c
  refine dispatch.trans (if_congr Iff.rfl rfl ?_)
  rw [Row.target_of_edges_nil _ rfl]
  simp only [dispatchRow, if_neg (h.alphabet.symbolOf_ne_endOfStream c), h.isSeparator_eq]

theorem onward_word (h : b.Legible declared) (c : Char) : b.onward .word (some c) =
    if declared.contains c || b.forest.opening.contains [c] then .startToken else .word := by
  rw [onward, row, Row.target_of_edges_nil _ rfl]
  simp only [wordRow, if_neg (h.alphabet.symbolOf_ne_endOfStream c), h.isSeparator_eq,
    h.contains_firstSymbols]

theorem onward_body (h : b.Legible declared) (region : Region) (c : Char) :
    b.onward (.body region) (some c) =
      if (b.forest.closing region).contains [c] then .closing region [c] else .body region := by
  have body := (h.closing region).target_withEdges { b.bodyRow region with edges := [] } []
    (.closing region) c
  refine body.trans (if_congr Iff.rfl rfl ?_)
  rw [Row.target_of_edges_nil _ rfl]
  simp only [bodyRow, if_neg (h.alphabet.symbolOf_ne_endOfStream c)]

/-- Where an opening text is not continued, it is a word, a body or the end of a token that goes
on. -/
theorem onward_opening (h : b.Legible declared) (path : List Char) (c : Char) :
    b.onward (.opening path) (some c) =
      if b.forest.opening.contains (path ++ [c]) then .opening (path ++ [c])
      else match b.forest.opening.accept? path with
        | none => b.onward .word (some c)
        | some (.opens region) => b.onward (.body region) (some c)
        | some _ => .endToken := by
  have opening := h.opening.target_withEdges (b.openingRow (b.forest.opening.accept? path)) path
    .opening c
  refine opening.trans (if_congr Iff.rfl rfl ?_)
  cases b.forest.opening.accept? path with
  | none => rfl
  | some accept => cases accept <;> rfl

/-- Where a closing text is not continued, the token ends or its body goes on. -/
theorem onward_closing (h : b.Legible declared) (region : Region) (path : List Char) (c : Char) :
    b.onward (.closing region path) (some c) =
      if (b.forest.closing region).contains (path ++ [c]) then .closing region (path ++ [c])
      else if ((b.forest.closing region).node? path).any TrieNode.endsBody then .endToken
      else b.onward (.body region) (some c) := by
  have closing := (h.closing region).target_withEdges (b.closingRow region path) path
    (.closing region) c
  refine closing.trans (if_congr Iff.rfl rfl ?_)
  rw [closingRow]
  split <;> rfl

theorem onward_word_ne_opening (h : b.Legible declared) (c : Char) (path : List Char) :
    b.onward .word (some c) ≠ .opening path := by
  rw [h.onward_word]
  split <;> exact Place.noConfusion

theorem onward_body_ne_opening (h : b.Legible declared) (region : Region) (c : Char)
    (path : List Char) : b.onward (.body region) (some c) ≠ .opening path := by
  rw [h.onward_body]
  split <;> exact Place.noConfusion

/-- A part of an opening text is read after the part that is shorter by one character. -/
theorem exists_opening_of_onward (h : b.Legible declared) (reads : place.consumes = true) {c : Char}
    {path : List Char} (leads : b.onward place (some c) = .opening path) :
    ∃ done, place = .opening done ∧ path = done ++ [c] := by
  cases place with
  | finish | startToken | endToken | flush => cases reads
  | word => exact absurd leads (h.onward_word_ne_opening c path)
  | separatorRun =>
      rw [h.toFormed.onward_separatorRun] at leads
      split at leads <;> cases leads
  | body region => exact absurd leads (h.onward_body_ne_opening region c path)
  | opening done =>
      rw [h.onward_opening] at leads
      split at leads
      · exact ⟨done, rfl, (Place.opening.inj leads).symm⟩
      · split at leads
        · exact absurd leads (h.onward_word_ne_opening c path)
        · exact absurd leads (h.onward_body_ne_opening _ c path)
        · cases leads
  | closing region done =>
      rw [h.onward_closing] at leads
      split at leads
      · cases leads
      · split at leads
        · cases leads
        · exact absurd leads (h.onward_body_ne_opening region c path)

/-- An opening text is read from its beginning. -/
theorem exists_opening_of_munch (h : b.Legible declared) (reads : place.consumes = true)
    {input path : List Char} (stops : (b.munch place input).place = .opening path) :
    ∃ done, place = .opening done ∧ path = done ++ (b.munch place input).text := by
  induction input generalizing place with
  | nil => exact ⟨path, stops, (List.append_nil path).symm⟩
  | cons c rest ih =>
      rw [munch_cons] at stops ⊢
      split at stops
      · next more =>
          obtain ⟨further, leads, rfl⟩ := ih more stops
          obtain ⟨done, rfl, rfl⟩ := h.exists_opening_of_onward reads leads
          refine ⟨done, rfl, ?_⟩
          rw [if_pos more, List.append_assoc]
          rfl
      · next steers =>
          refine ⟨path, stops, ?_⟩
          rw [if_neg steers]
          exact (List.append_nil path).symm

/-- Where a segment ends in an opening text, the segment is this text. -/
theorem text_first (h : b.Legible declared) (lexing : b.Lexing) {c : Char} {rest path : List Char}
    (stops : (b.first c rest).place = .opening path) : (b.first c rest).text = path := by
  obtain ⟨done, leads, rfl⟩ := h.exists_opening_of_munch (lexing.onward_startToken_reads c) stops
  have start : done = [c] := by
    rw [h.onward_startToken] at leads
    split at leads
    · exact (Place.opening.inj leads).symm
    · split at leads <;> cases leads
  rw [start]
  rfl

end Legible

end Blueprint

namespace RuleSet

variable {r : RuleSet}

theorem normal_of_sensitive (sensitive : r.ignoreCase = false) (text : String) :
    r.normal text = text.toList := by
  rw [normal, sensitive]
  rfl

/-- Where case counts, the columns of a rule set tell characters apart. -/
theorem blueprint_legible (sensitive : r.ignoreCase = false) :
    r.blueprint.Legible r.separators := by
  have shared : (r.separators.foldl Alphabet.registerSeparator .empty).CaseSensitive r.separators :=
    Alphabet.CaseSensitive.empty.foldl_registerSeparator r.separators
  have counts : r.alphabet = (r.separators.foldl Alphabet.registerSeparator .empty).registerAll
      r.forest.chars false := by
    rw [alphabet, sensitive]
  have columns : r.alphabet.CaseSensitive r.separators := by
    rw [counts]
    exact shared.registerAll r.forest.chars
  have spells : ∀ t : RuleTrie, (∀ c ∈ t.chars, c ∈ r.forest.chars) → r.blueprint.Spells t := by
    intro t known path c held d
    apply columns.symbolOf_eq_iff
    rw [counts]
    exact .of_registerAll shared.toInRange (known c (RuleTrie.mem_chars_of_contains held))
  have family : ∀ {tries : List RuleTrie},
      (∀ c ∈ tries.flatMap RuleTrie.chars, c ∈ r.forest.chars) →
      ∀ i : Nat, r.blueprint.Spells ((tries[i]?).getD .empty) := by
    intro tries known i
    cases found : tries[i]? with
    | none => exact spells .empty fun c mem => by cases mem
    | some t =>
        refine spells t fun c mem => known c ?_
        exact List.mem_flatMap.mpr ⟨t, List.mem_of_getElem? found, mem⟩
  refine ⟨r.blueprint_formed, spells _ fun c mem => ?_, fun region => ?_, columns.separates_iff⟩
  · exact List.mem_append_left _ (List.mem_append_left _ mem)
  · cases region with
    | comment i =>
        refine family (fun c mem => ?_) i
        exact List.mem_append_left _ (List.mem_append_right _ mem)
    | literal i => exact family (fun c mem => List.mem_append_right _ mem) i

end RuleSet

end TableLexer
