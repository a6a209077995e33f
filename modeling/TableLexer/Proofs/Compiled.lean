import TableLexer.Proofs.LexemeIndex

/-!
# Compiled tables pass the check of stored ones

Any alphabet that registrations can make and any tries that calls can make compile to tables whose
shape the check accepts. The tables of a rule set pass the whole check besides: every character
has a column of its own or a shared one, and the index names only states of keywords and
operators. So storing tables and putting them together again changes nothing.
-/

namespace TableLexer

namespace RuleForest

/-- The tries that calls make: those for the opening trie, and those for each closing trie. -/
def ofCalls (opening : List TrieCall) (comments literals : List (List TrieCall)) : RuleForest :=
  ⟨.ofCalls opening, comments.map .ofCalls, literals.map .ofCalls⟩

/-- Whether a region is one of so many comments and literals. -/
def IsRegion (comments literals : Nat) : Region → Prop
  | .comment i => i < comments
  | .literal i => i < literals

theorem mem_regions_iff {f : RuleForest} {region : Region} :
    region ∈ f.regions ↔ IsRegion f.comments.length f.literals.length region := by
  rw [mem_regions]
  cases region <;> rfl

/-- What a path of a trie does, one of its calls said. -/
theorem exists_call_of_accept? {calls : List TrieCall} {path : List Char} {accept : Accept}
    (found : (RuleTrie.ofCalls calls).accept? path = some accept) :
    ∃ call ∈ calls, call.accept = accept := by
  suffices ∀ t : RuleTrie, t.Formed → (calls.foldl RuleTrie.enter t).accept? path = some accept →
      t.accept? path = some accept ∨ ∃ call ∈ calls, call.accept = accept by
    simpa [RuleTrie.accept?] using this .empty .empty found
  clear found
  induction calls with
  | nil => exact fun t h found => .inl found
  | cons call calls ih =>
      intro t h found
      obtain old | ⟨other, mem, same⟩ := ih (t.enter call) (h.enter call) found
      · rw [h.accept?_enter] at old
        split at old
        · exact .inr ⟨call, List.mem_cons_self, Option.some.inj old⟩
        · exact .inl old
      · exact .inr ⟨other, List.mem_cons_of_mem _ mem, same⟩

theorem ofCalls_formed {opening : List TrieCall} {comments literals : List (List TrieCall)}
    (opens : ∀ call ∈ opening, ∀ region, call.accept = .opens region →
      IsRegion comments.length literals.length region) :
    (ofCalls opening comments literals).Formed := by
  refine ⟨.ofCalls opening, ?_, ?_, ?_⟩
  · intro t mem
    obtain ⟨calls, -, rfl⟩ := List.mem_map.mp mem
    exact .ofCalls calls
  · intro t mem
    obtain ⟨calls, -, rfl⟩ := List.mem_map.mp mem
    exact .ofCalls calls
  · intro path region found
    obtain ⟨call, mem, same⟩ := exists_call_of_accept? found
    rw [mem_regions_iff]
    simpa [ofCalls] using opens call mem region same

end RuleForest

/-- Compiled tables are safe to scan with. -/
theorem Blueprint.Formed.sound {b : Blueprint} (h : b.Formed) : (Tables.ofBlueprint b).Sound where
  toShape := h.shape
  width_eq := b.columns_rows.symm
  symbol_lt found := (h.alphabet.symbol_mem found).2

namespace RuleSet

variable {ds : List Declaration}

theorem blueprint_formed (r : RuleSet) : r.blueprint.Formed where
  forest := r.forest_formed
  alphabet := (Alphabet.InRange.empty.foldl_registerSeparator r.separators).registerAll _ _

/-- In the opening trie of declared rules, a text that ends its token is a keyword or an
operator. -/
theorem isExact_of_endsToken {path : List Char} {accept : Accept}
    (found : (ofDeclarations ds).forest.opening.accept? path = some accept)
    (ends : accept.endsToken = true) : accept.kind.isExact = true := by
  have nonempty : path ≠ [] := by
    rintro rfl
    cases (ofDeclarations ds).forest_formed.opening.accept?_nil.symm.trans found
  have owned := (ofDeclarations ds).accept?_forest nonempty
  split at owned
  · rw [owned] at found
    cases found
  · next rule held =>
      obtain ⟨accept', same, plants⟩ := owned
      rw [found] at same
      cases same
      have mem : rule ∈ (ofDeclarations ds).rules := by
        simpa using List.mem_of_find?_eq_some held
      cases rule with
      | exact kind text =>
          rw [show accept = .exact kind from plants]
          exact valid_of_mem_rules mem
      | comment opening closing | literal border escape =>
          obtain ⟨i, rfl, -⟩ := plants
          cases ends

/-- The index of declared rules names states of keywords and operators only. -/
theorem isExact_of_lexemeState? {text : String} {state : StateId}
    (found : (ofDeclarations ds).compile.lexemeState? text = some state) :
    ((ofDeclarations ds).compile.kinds[state]?).any TokenKind.isExact = true := by
  have formed := (ofDeclarations ds).forest_formed
  obtain ⟨⟨accept, done, ends⟩, rfl⟩ := (Blueprint.lexemeState?_eq_some_iff formed.opening).mp found
  rw [show (ofDeclarations ds).compile.kinds[_]? = _ from
    Blueprint.kinds_number (RuleForest.opening_mem done)]
  have kind : (ofDeclarations ds).blueprint.forest.kindAt (.opening text.toList) = accept.kind :=
    RuleForest.kindAt_opening done
  rw [kind, Option.any_some]
  exact isExact_of_endsToken done ends

/-- Compiled tables are put together again from their parts. -/
theorem ofParts_compile (ds : List Declaration) : let t := (ofDeclarations ds).compile
    Tables.ofParts t.alphabet t.rows t.kinds t.lexemes = .ok t := by
  intro t
  have formed := (ofDeclarations ds).blueprint_formed
  have columns : Tables.columns t.rows = (ofDeclarations ds).alphabet.size :=
    Blueprint.columns_rows (ofDeclarations ds).blueprint
  have wide : Symbol.firstFree ≤ (ofDeclarations ds).alphabet.size := formed.alphabet.size_ge
  refine Tables.ofParts_eq_ok_iff.mpr
    ⟨Tables.defect?_eq_none_iff.mpr ⟨formed.shape, ?_, ?_, ?_⟩, ?_⟩
  · exact Nat.le_of_eq columns.symm
  · intro c s found
    have column := formed.alphabet.symbol_mem found
    refine ⟨columns ▸ column.2, Nat.ne_of_gt (Nat.lt_of_lt_of_le (by decide) column.1)⟩
  · intro text state found
    exact isExact_of_lexemeState? found
  · rw [columns, Nat.max_eq_left wide]
    rfl

end RuleSet

/-- What any registrations and any calls compile to has a shape that the check accepts, enters the
reserved states in the one order and has a state for each meaning. The tables of a rule set have
such a shape, too, and are put together again from their parts. -/
theorem compiled_tables_pass_check :
    (∀ (registrations : List Registration) (opening : List TrieCall)
        (comments literals : List (List TrieCall)),
      (∀ call ∈ opening, ∀ region, call.accept = .opens region →
        RuleForest.IsRegion comments.length literals.length region) →
      let a := Alphabet.ofRegistrations registrations
      let t := Tables.ofBlueprint ⟨a, .ofCalls opening comments literals⟩
      (Tables.shapeDefect? t.rows t.kinds = none ∧ Tables.columns t.rows = a.size) ∧
        t.Orderly ∧
        t.stateCount = 6 + (RuleTrie.ofCalls opening).size +
          (comments.map fun calls => 1 + (RuleTrie.ofCalls calls).size).sum +
          (literals.map fun calls => 1 + (RuleTrie.ofCalls calls).size).sum) ∧
    ∀ ds : List Declaration,
      let r := RuleSet.ofDeclarations ds
      let t := r.compile
      (Tables.shapeDefect? t.rows t.kinds = none ∧ Tables.columns t.rows = r.alphabet.size) ∧
        Tables.ofParts t.alphabet t.rows t.kinds t.lexemes = .ok t := by
  constructor
  · intro registrations opening comments literals opens a t
    have formed : Blueprint.Formed ⟨a, .ofCalls opening comments literals⟩ :=
      ⟨RuleForest.ofCalls_formed opens, .ofRegistrations registrations⟩
    refine ⟨⟨Tables.shapeDefect?_eq_none_iff.mpr formed.shape, Blueprint.columns_rows _⟩,
      formed.orderly, ?_⟩
    rw [Blueprint.stateCount_ofBlueprint, RuleForest.length_places]
    simp [RuleForest.ofCalls, Function.comp_def]
  · intro ds r t
    have formed := r.blueprint_formed
    exact ⟨⟨Tables.shapeDefect?_eq_none_iff.mpr formed.shape, Blueprint.columns_rows _⟩,
      RuleSet.ofParts_compile ds⟩

/-- A comment of which no character is registered. -/
theorem compiled_comment_passes_check :
    let opening : List TrieCall := [⟨"/*".toList, .opens (.comment 0), false⟩]
    let comments : List (List TrieCall) := [[⟨"*/".toList, .close .comment, false⟩]]
    let t := Tables.ofBlueprint ⟨.ofRegistrations [.separator ' '], .ofCalls opening comments []⟩
    Tables.shapeDefect? t.rows t.kinds = none ∧ t.Orderly := by
  intro opening comments t
  have opens : ∀ call ∈ opening, ∀ region, call.accept = .opens region →
      RuleForest.IsRegion comments.length 0 region := by
    intro call mem region same
    cases List.mem_singleton.mp mem
    cases same
    exact Nat.zero_lt_one
  obtain ⟨⟨shape, -⟩, orderly, -⟩ :=
    compiled_tables_pass_check.1 [.separator ' '] opening comments [] opens
  exact ⟨shape, orderly⟩

end TableLexer
