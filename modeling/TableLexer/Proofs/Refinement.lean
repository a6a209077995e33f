import TableLexer.Proofs.Bodies
import TableLexer.Proofs.Scanning

/-!
# Compiled tables scan as the rules say

Where case counts, the tokens of a text by compiled tables are those that the rule texts give.
Both lexers cut a text into segments and join adjacent word text, so it is enough that they cut
off the same first segment. The automaton climbs the opening trie as far as the text allows; what
its place does then is said by the last rule with the text that it spells.
-/

namespace TableLexer

namespace Blueprint

variable {b : Blueprint} {place : Place}

/-- From a place that is left by some characters only, everything up to the first of them is
read. -/
theorem cutFrom_run (stays : Char → Bool) (reads : place.consumes = true)
    (stay : ∀ c, stays c = true → b.onward place (some c) = place)
    (leave : ∀ c, stays c = false → (b.onward place (some c)).consumes = false)
    (input : List Char) : b.cutFrom place input =
      ⟨⟨b.forest.kindAt place, input.takeWhile stays, ()⟩, input.dropWhile stays⟩ := by
  induction input with
  | nil => rfl
  | cons c rest ih =>
      rw [cutFrom_cons, List.takeWhile_cons, List.dropWhile_cons]
      cases known : stays c with
      | true =>
          rw [stay c known, if_pos reads, ih]
          rfl
      | false =>
          have steers : ¬ (b.onward place (some c)).consumes = true := by simp [leave c known]
          rw [if_neg steers]
          rfl

/-- A run of separators goes on to the next character that separates nothing. -/
theorem Formed.cutFrom_separatorRun (h : b.Formed) (input : List Char) :
    b.cutFrom .separatorRun input =
      ⟨⟨.separator, input.takeWhile b.separates, ()⟩, input.dropWhile b.separates⟩ := by
  refine cutFrom_run b.separates rfl (fun c stays => ?_) (fun c leaves => ?_) input
  · rw [h.onward_separatorRun, if_pos stays]
  · rw [h.onward_separatorRun, leaves]
    rfl

/-- Once an opening text is not continued, it is word text, or a body follows, or its token ends. -/
theorem Legible.cutFrom_opening {declared path left : List Char} (h : b.Legible declared)
    (stop : ∀ c ∈ left.head?, b.forest.opening.contains (path ++ [c]) = false) :
    b.cutFrom (.opening path) left =
      match b.forest.opening.accept? path with
      | none => b.cutFrom .word left
      | some (.opens region) => b.cutFrom (.body region) left
      | some accept => ⟨⟨accept.kind, [], ()⟩, left⟩ := by
  have next : ∀ c ∈ left.head?, b.onward (.opening path) (some c) =
      match b.forest.opening.accept? path with
      | none => b.onward .word (some c)
      | some (.opens region) => b.onward (.body region) (some c)
      | some _ => .endToken := by
    intro c mem
    rw [h.onward_opening, stop c mem]
    rfl
  cases found : b.forest.opening.accept? path with
  | none =>
      rw [found] at next
      exact cutFrom_congr (RuleForest.kindAt_opening found) next
  | some accept =>
      rw [found] at next
      have kind : b.forest.kindAt (.opening path) = accept.kind := RuleForest.kindAt_opening found
      cases accept with
      | opens region => exact cutFrom_congr kind next
      | exact kind' | close kind' =>
          cases left with
          | nil => rw [cutFrom_nil, kind]
          | cons c left =>
              rw [cutFrom_cons, next c rfl, kind]
              rfl

end Blueprint

namespace RuleSet

variable {r : RuleSet} {path left : List Char}

theorem forest_blueprint (r : RuleSet) : r.blueprint.forest = r.forest := rfl

theorem opening_holds (sensitive : r.ignoreCase = false) :
    r.blueprint.forest.opening.Holds r.openTexts := by
  intro path
  rw [forest_blueprint, r.planted.contains_iff, begins_iff]
  simp [openTexts, normal_of_sensitive sensitive]

theorem owner?_of_sensitive (sensitive : r.ignoreCase = false) (path : List Char) :
    r.owner? path = r.lastRule? path := by
  simp only [owner?, lastRule?, normal_of_sensitive sensitive]

/-- Word text goes on to the next character that separates words or begins an opening text. -/
theorem cutFrom_word (sensitive : r.ignoreCase = false) (input : List Char) :
    r.blueprint.cutFrom .word input =
      ⟨⟨.word, input.takeWhile r.continuesWord, ()⟩, input.dropWhile r.continuesWord⟩ := by
  have next : ∀ c, r.blueprint.onward .word (some c) =
      if r.continuesWord c then .word else .startToken := by
    intro c
    have first : begins r.openTexts [c] = r.blueprint.forest.opening.contains [c] :=
      (opening_holds sensitive).begins_eq [] c
    rw [(blueprint_legible sensitive).onward_word, continuesWord, separates, first]
    cases r.separators.contains c <;> cases r.blueprint.forest.opening.contains [c] <;> rfl
  refine Blueprint.cutFrom_run r.continuesWord rfl (fun c stays => ?_) (fun c leaves => ?_) input
  · rw [next, if_pos stays]
  · rw [next, leaves]
    rfl

theorem cutFrom_separatorRun (sensitive : r.ignoreCase = false) (input : List Char) :
    r.blueprint.cutFrom .separatorRun input =
      ⟨⟨.separator, input.takeWhile r.separates, ()⟩, input.dropWhile r.separates⟩ := by
  have h := blueprint_legible sensitive
  have same : r.blueprint.separates = r.separates := funext h.isSeparator_eq
  rw [h.toFormed.cutFrom_separatorRun, same]

/-- The owner of an opening text decides what follows once the text is not continued. -/
theorem cutFrom_opening (sensitive : r.ignoreCase = false)
    (held : r.blueprint.forest.opening.contains path = true)
    (stop : ∀ c ∈ left.head?, r.blueprint.forest.opening.contains (path ++ [c]) = false) :
    (r.blueprint.cutFrom (.opening path) left).after path = r.cutOpening path left := by
  have h := blueprint_legible sensitive
  have nonempty : path ≠ [] := ((opening_holds sensitive path).mp held).1
  have owned := r.accept?_forest nonempty
  rw [owner?_of_sensitive sensitive] at owned
  rw [h.cutFrom_opening stop, forest_blueprint, cutOpening]
  cases owner : r.lastRule? path with
  | none =>
      rw [owner] at owned
      simp only [owned, cutFrom_word sensitive, Cut.after]
  | some rule =>
      rw [owner] at owned
      obtain ⟨accept, found, plants⟩ := owned
      cases rule with
      | exact kind text =>
          obtain rfl : accept = .exact kind := plants
          simp [found, Cut.after, Accept.kind]
      | comment opening closing | literal border escape =>
          obtain ⟨i, rfl, -⟩ := id plants
          simp only [found, h.cutFrom_body (plants.encloses sensitive)]
          rfl

/-- The automaton cuts off the segment that the rule texts give. -/
theorem cutFrom_startToken (sensitive : r.ignoreCase = false) (c : Char) (rest : List Char) :
    (r.blueprint.cutFrom (r.blueprint.onward .startToken (some c)) rest).after [c] =
      r.cut c rest := by
  have h := blueprint_legible sensitive
  have texts := opening_holds sensitive
  rw [h.onward_startToken]
  by_cases held : r.blueprint.forest.opening.contains [c] = true
  · have climbs : ∀ path c, r.blueprint.forest.opening.contains (path ++ [c]) = true →
        r.blueprint.onward (.opening path) (some c) = .opening (path ++ [c]) := by
      intro path c further
      rw [h.onward_opening, if_pos further]
    obtain ⟨more, left, rfl, top, stop, cut⟩ :=
      Blueprint.exists_climb .opening (fun _ => rfl) climbs held rest
    have longest : longestBeginning r.openTexts (c :: (more ++ left)) = c :: more :=
      texts.longestBeginning_eq (.inr top) stop
    rw [if_pos held, cut, Cut.after_after, cutFrom_opening sensitive top stop, RuleSet.cut, longest]
    simp
  · have free := Bool.eq_false_iff.mpr held
    rw [if_neg held, RuleSet.cut, texts.longestBeginning_eq_nil free]
    show _ = if r.separates c then _ else _
    rw [separates]
    split
    · rw [cutFrom_separatorRun sensitive]
      rfl
    · rw [cutFrom_word sensitive]
      rfl

/-- The segments of a text by compiled tables are those that the rule texts give. -/
theorem relabel_segments (sensitive : r.ignoreCase = false) (text : List Char) :
    (r.blueprint.segments text).map (Segment.relabel fun _ => ()) = r.cutAll text := by
  induction text using Blueprint.segments.induct r.blueprint with
  | case1 => rw [Blueprint.segments_nil, cutAll, List.map_nil]
  | case2 c rest ih =>
      have cut := cutFrom_startToken sensitive c rest
      have segment : ((r.blueprint.first c rest).segment r.blueprint).relabel (fun _ => ()) =
          (r.cut c rest).segment := congrArg Cut.segment cut
      have left : (r.blueprint.first c rest).rest = (r.cut c rest).rest := congrArg Cut.rest cut
      rw [Blueprint.segments_cons, List.map_cons, ih, segment, left, cutAll]

end RuleSet

namespace Blueprint

variable {b : Blueprint}

/-- What the label of a segment, and of a token, says about its state. -/
def Labelled (b : Blueprint) (p : Segment StateId) : Prop :=
  (p.kind.isExact = true →
    (Tables.ofBlueprint b).lexemeState? (String.ofList p.text) = some p.label) ∧
  (p.kind = .word → p.label = StateId.word)

/-- The state of a keyword or an operator is the one that the index has for its text. -/
theorem Legible.labelled {declared : List Char} (h : b.Legible declared) (lexing : b.Lexing)
    {text : List Char} {p : Segment StateId} (mem : p ∈ Segment.join (b.segments text)) :
    b.Labelled p := by
  refine Segment.forall_join (forall_mem_segments (fun c rest => ?_) text) ?_ p mem
  · constructor
    · intro closed
      obtain ⟨path, accept, place, done, ends⟩ := exists_opening_of_isExact closed
      have apart : b.forest.kindAt (.opening path) ≠ .word := by
        intro word
        change (b.forest.kindAt (b.first c rest).place).isExact = true at closed
        rw [place, word] at closed
        cases closed
      simp only [Munch.segment, h.text_first lexing place, place, stateAt, if_neg apart]
      apply (lexemeState?_eq_some_iff h.forest.opening).mpr
      rw [String.toList_ofList]
      exact ⟨⟨accept, done, ends⟩, rfl⟩
    · intro word
      exact if_pos word
  · intro q word labelled more
    refine ⟨fun closed => ?_, labelled.2⟩
    rw [word] at closed
    cases closed

end Blueprint

/-- What the rule texts say about a token: where it begins, its kind and its text. -/
def Token.outline (token : Token) : Position × Segment Unit :=
  (token.start, ⟨token.kind, token.text.toList, ()⟩)

/-- The outlines of the tokens of a text are what the rule texts give. -/
theorem map_outline_tokenize {ds : List Declaration}
    (sensitive : (RuleSet.ofDeclarations ds).ignoreCase = false) (text : String) :
    ((RuleSet.ofDeclarations ds).compile.tokenize text false).map Token.outline =
      (RuleSet.ofDeclarations ds).lex text := by
  have located : (RuleSet.ofDeclarations ds).compile.tokenize text false = _ :=
    (Blueprint.Lexing.of_declarations ds).tokenize_eq text
  rw [located, RuleSet.lex, ← RuleSet.relabel_segments sensitive, ← Segment.map_join,
    Segment.map_locate, Segment.tokens, List.map_map]
  apply List.map_congr_left
  intro q _
  simp only [Function.comp_apply, Token.outline, Segment.token, String.toList_ofList,
    Segment.relabel]

/-- Where case counts, scanning a text with the tables of a rule set gives the tokens that the
rule texts give. The state of a keyword or an operator is the one that the index has for its
text. -/
theorem tokenize_eq_lex (ds : List Declaration)
    (sensitive : (RuleSet.ofDeclarations ds).ignoreCase = false) (text : String) :
    let r := RuleSet.ofDeclarations ds
    let t := r.compile
    let tokens := t.tokenize text false
    tokens.map Token.outline = r.lex text ∧
      ∀ token ∈ tokens,
        (token.kind.isExact = true → t.lexemeState? token.text = some token.state) ∧
        (token.kind = .word → token.state = StateId.word) := by
  intro r t tokens
  have lexing := Blueprint.Lexing.of_declarations ds
  have legible := RuleSet.blueprint_legible sensitive
  constructor
  · exact map_outline_tokenize sensitive text
  · intro token mem
    rw [show tokens = _ from lexing.tokenize_eq text] at mem
    obtain ⟨start, p, held, rfl⟩ := Segment.mem_tokens.mp mem
    exact legible.labelled lexing (Segment.mem_of_mem_locate held)

/-- One operator begins another, and the slash of a fraction begins a comment that does not come. -/
theorem tokenize_fraction :
    let ds : List Declaration :=
      [.keywords ["if"], .operators ["=", "=="], .comment "/*" "*/", .separators " "]
    (RuleSet.ofDeclarations ds).ignoreCase = false ∧
      ((RuleSet.ofDeclarations ds).compile.tokenize "if x==1/2/*a*/" false).map Token.outline =
        [(⟨1, 1⟩, ⟨.keyword, "if".toList, ()⟩), (⟨1, 3⟩, ⟨.separator, " ".toList, ()⟩),
          (⟨1, 4⟩, ⟨.word, "x".toList, ()⟩), (⟨1, 5⟩, ⟨.operator, "==".toList, ()⟩),
          (⟨1, 7⟩, ⟨.word, "1/2".toList, ()⟩), (⟨1, 10⟩, ⟨.comment, "/*a*/".toList, ()⟩)] := by
  intro ds
  have sensitive : (RuleSet.ofDeclarations ds).ignoreCase = false := rfl
  refine ⟨sensitive, (tokenize_eq_lex ds sensitive _).1.trans ?_⟩
  decide +kernel

end TableLexer
