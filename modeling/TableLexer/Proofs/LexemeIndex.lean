import TableLexer.Proofs.Steering

/-!
# The index of exact rules

Compiled tables know the state of every keyword and operator by its text. The index holds exactly
the paths of the opening trie that complete an exact rule; since distinct texts are distinct
paths, no entry overwrites another.
-/

namespace TableLexer

/-- A completed text ends its token and is found in the index. -/
def Accept.endsToken : Accept → Bool
  | .exact _ | .close _ => true
  | .opens _ => false

theorem TrieNode.exactText?_eq_some {node : TrieNode} {text : String} :
    node.exactText? = some text ↔
      (∃ accept, node.accept = some accept ∧ accept.endsToken = true) ∧
        text.toList = node.path := by
  have spelled : text.toList = node.path ↔ String.ofList node.path = text :=
    ⟨fun same => same ▸ String.ofList_toList, fun same => same ▸ String.toList_ofList⟩
  rw [spelled, exactText?]
  cases h : node.accept with
  | none => simp
  | some accept => cases accept <;> simp [lexeme?, h, Accept.endsToken]

namespace Blueprint

variable {b : Blueprint}

/-- The exact texts with their states, in the order of the states. -/
def exactTexts (b : Blueprint) : List (String × StateId) :=
  b.forest.opening.preorder.filterMap fun node =>
    node.exactText?.map fun text => (text, b.number (.opening node.path))

theorem lexemes_automaton (b : Blueprint) :
    b.automaton.lexemes = Std.ExtTreeMap.ofList b.exactTexts := rfl

theorem mem_exactTexts {text : String} {state : StateId} : (text, state) ∈ b.exactTexts ↔
    ∃ node ∈ b.forest.opening.nodes, node.exactText? = some text ∧
      b.number (.opening node.path) = state := by
  simp [exactTexts, b.forest.opening.preorder_perm.mem_iff]

theorem exactTexts_distinct (h : b.forest.opening.Formed) :
    b.exactTexts.Pairwise fun one other => ¬ compare one.1 other.1 = .eq := by
  rw [exactTexts, List.pairwise_filterMap]
  have paths : (b.forest.opening.preorder.map TrieNode.path).Nodup :=
    (b.forest.opening.preorder_perm.map _).nodup_iff.mpr h.nodup
  refine (List.pairwise_map.mp paths).imp fun {one other} apart => ?_
  intro ⟨text, state⟩ first ⟨text', state'⟩ second same
  obtain ⟨_, found, pair⟩ := Option.map_eq_some_iff.mp first
  obtain ⟨_, found', pair'⟩ := Option.map_eq_some_iff.mp second
  cases pair
  cases pair'
  have texts : text = text' := Std.LawfulEqOrd.compare_eq_iff_eq.mp same
  apply apart
  rw [← (TrieNode.exactText?_eq_some.mp found).2, ← (TrieNode.exactText?_eq_some.mp found').2,
    texts]

/-- The index gives the state of a text exactly if the text completes an exact rule. -/
theorem lexemeState?_eq_some_iff (h : b.forest.opening.Formed) {text : String} {state : StateId} :
    (Tables.ofBlueprint b).lexemeState? text = some state ↔
      (∃ accept, b.forest.opening.accept? text.toList = some accept ∧ accept.endsToken = true) ∧
        b.number (.opening text.toList) = state := by
  show b.automaton.lexemes[text]? = some state ↔ _
  rw [lexemes_automaton, Tables.getElem?_ofList_eq_some_iff (exactTexts_distinct h), mem_exactTexts]
  simp only [TrieNode.exactText?_eq_some]
  constructor
  · rintro ⟨node, mem, ⟨⟨accept, done, ends⟩, spelled⟩, rfl⟩
    rw [spelled]
    exact ⟨⟨accept, by rw [RuleTrie.accept?, h.node?_of_mem mem, Option.bind_some, done], ends⟩,
      rfl⟩
  · rintro ⟨⟨accept, done, ends⟩, rfl⟩
    obtain ⟨node, found, done⟩ := Option.bind_eq_some_iff.mp done
    obtain ⟨mem, spelled⟩ := RuleTrie.node?_eq_some found
    exact ⟨node, mem, ⟨⟨accept, done, ends⟩, spelled.symm⟩, by rw [spelled]⟩

/-- Keywords and operators are gathered where an opening text ends its token. -/
theorem exists_opening_of_isExact {place : Place}
    (closed : (b.forest.kindAt place).isExact = true) :
    ∃ path accept, place = .opening path ∧ b.forest.opening.accept? path = some accept ∧
      accept.endsToken = true := by
  have other : ∀ region : Region, region.kind.isExact ≠ true := fun region => by
    simp [region.isExact_kind]
  cases place with
  | finish | startToken | endToken | flush | word | separatorRun => cases closed
  | body region | closing region path => exact absurd closed (other region)
  | opening path =>
      cases found : b.forest.opening.accept? path with
      | none =>
          rw [RuleForest.kindAt_opening found] at closed
          cases closed
      | some accept =>
          refine ⟨path, accept, rfl, found, ?_⟩
          cases accept with
          | exact kind | close kind => rfl
          | opens region =>
              rw [RuleForest.kindAt_opening found] at closed
              exact absurd closed (other region)

end Blueprint

/-- The kind of an exact rule. -/
def Rule.exactKind? : Rule → Option TokenKind
  | exact kind _ => some kind
  | comment _ _ | literal _ _ => none

namespace RuleSet

/-- The index has a text if the rule that owns it is an exact one, and then the state that it gives
has the kind of this rule. -/
theorem map_kindOf_lexemeState? (r : RuleSet) {text : String} (more : text ≠ "") :
    (r.compile.lexemeState? text).map r.compile.kindOf =
      (r.owner? text.toList).bind Rule.exactKind? := by
  have formed := r.forest_formed.opening
  have nonempty : text.toList ≠ [] := mt String.toList_eq_nil_iff.mp more
  have owned := r.accept?_forest nonempty
  -- A text that no exact rule completes is not in the index.
  have missing : (∀ accept, r.forest.opening.accept? text.toList = some accept →
      accept.endsToken = false) → r.compile.lexemeState? text = none := by
    intro other
    refine Option.eq_none_iff_forall_ne_some.mpr fun state found => ?_
    obtain ⟨⟨accept, done, ends⟩, -⟩ := (Blueprint.lexemeState?_eq_some_iff formed).mp found
    simp [other accept done] at ends
  cases owner : r.owner? text.toList with
  | none =>
      simp only [owner] at owned
      rw [missing (by simp [owned]), Option.map_none, Option.bind_none]
  | some rule =>
      simp only [owner] at owned
      obtain ⟨accept, found, plants⟩ := owned
      cases rule with
      | exact kind _ =>
          obtain rfl : accept = .exact kind := plants
          have indexed : r.compile.lexemeState? text =
              some (r.blueprint.number (.opening text.toList)) :=
            (Blueprint.lexemeState?_eq_some_iff formed).mpr ⟨⟨_, found, rfl⟩, rfl⟩
          have kind : r.blueprint.forest.kindAt (.opening text.toList) = kind :=
            RuleForest.kindAt_opening found
          have kindOf : r.compile.kindOf (r.blueprint.number (.opening text.toList)) =
              r.blueprint.forest.kindAt (.opening text.toList) :=
            Blueprint.kindOf_number (RuleForest.opening_mem found)
          rw [indexed, Option.map_some, kindOf, kind, Option.bind_some, Rule.exactKind?]
      | comment _ closing | literal _ escape =>
          obtain ⟨i, rfl, -⟩ := plants
          rw [missing (by simp [found, Accept.endsToken]), Option.map_none, Option.bind_some,
            Rule.exactKind?]

/-- The empty text is not in the index. -/
theorem lexemeState?_empty (r : RuleSet) : r.compile.lexemeState? "" = none := by
  have formed := r.forest_formed.opening
  refine Option.eq_none_iff_forall_ne_some.mpr fun state found => ?_
  obtain ⟨⟨accept, done, -⟩, -⟩ := (Blueprint.lexemeState?_eq_some_iff formed).mp found
  cases formed.accept?_nil.symm.trans done

end RuleSet

end TableLexer
