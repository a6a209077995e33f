import TableLexer.Proofs.Compiled

/-!
# The index of exact rules is one to one

The index has the texts of those exact rules that own them. Distinct texts complete at distinct
places, and no other place gathers keywords or operators, so the index and the states of exact
kinds determine each other. A search for the text of a state therefore finds the same text in
whatever order it goes through the index.
-/

namespace TableLexer

/-- A search by the second entry finds a pair of which there is no other one with this entry. -/
theorem find?_snd_eq_some_iff {α : Type} {entries : List (α × StateId)}
    (unique : ∀ a b state, (a, state) ∈ entries → (b, state) ∈ entries → a = b) {a : α}
    {state : StateId} :
    (entries.find? (·.2 == state)).map (·.1) = some a ↔ (a, state) ∈ entries := by
  have fits : ∀ {entry : α × StateId}, entries.find? (·.2 == state) = some entry →
      entry ∈ entries ∧ entry.2 = state := fun first =>
    ⟨List.mem_of_find?_eq_some first, by simpa using List.find?_some first⟩
  constructor
  · intro found
    obtain ⟨entry, first, rfl⟩ := Option.map_eq_some_iff.mp found
    obtain ⟨held, rfl⟩ := fits first
    exact held
  · intro mem
    cases first : entries.find? (·.2 == state) with
    | none => exact absurd (beq_self_eq_true state) (List.find?_eq_none.mp first _ mem)
    | some entry =>
        obtain ⟨held, rfl⟩ := fits first
        exact congrArg some (unique _ _ _ held mem)

namespace Blueprint

variable {b : Blueprint}

/-- No two texts share a state. -/
theorem lexemeState?_inj (h : b.forest.opening.Formed) {text text' : String} {state : StateId}
    (found : (Tables.ofBlueprint b).lexemeState? text = some state)
    (found' : (Tables.ofBlueprint b).lexemeState? text' = some state) : text = text' := by
  obtain ⟨⟨accept, done, -⟩, here⟩ := (lexemeState?_eq_some_iff h).mp found
  obtain ⟨-, there⟩ := (lexemeState?_eq_some_iff h).mp found'
  have same : Place.opening text.toList = .opening text'.toList :=
    (number_inj (RuleForest.opening_mem done)).mp (here.trans there.symm)
  exact String.toList_injective (Place.opening.inj same)

/-- A state of an exact kind completes a text of the index. -/
theorem Formed.exists_lexemeState?_eq (h : b.Formed) {state : StateId}
    (closed : ((Tables.ofBlueprint b).kindOf state).isExact = true) :
    ∃ text, (Tables.ofBlueprint b).lexemeState? text = some state := by
  have inside : state < (Tables.ofBlueprint b).stateCount := by
    by_contra outside
    have none : (Tables.ofBlueprint b).kinds[state]? = none :=
      Array.getElem?_eq_none (Nat.not_lt.mp outside)
    rw [Tables.kindOf, none] at closed
    cases closed
  obtain ⟨place, mem, rfl⟩ := exists_number_eq h.forest (stateCount_ofBlueprint b ▸ inside)
  rw [kindOf_number mem] at closed
  obtain ⟨path, accept, rfl, done, ends⟩ := exists_opening_of_isExact closed
  refine ⟨String.ofList path, (lexemeState?_eq_some_iff h.forest.opening).mpr ?_⟩
  rw [String.toList_ofList]
  exact ⟨⟨accept, done, ends⟩, rfl⟩

end Blueprint

namespace RuleSet

variable {r : RuleSet}

theorem normal_eq_nil_iff {text : String} : r.normal text = [] ↔ text = "" := by
  rw [normal]
  split <;> simp

theorem normal_of_owner? {path : List Char} {rule : Rule} (owner : r.owner? path = some rule) :
    r.normal rule.openText = path := by
  have held := List.find?_some owner
  exact beq_iff_eq.mp held

/-- The index has the texts that exact rules own, with states of the kinds of these rules. -/
theorem exists_lexemeState?_iff {ds : List Declaration} {key : String} {kind : TokenKind} :
    (∃ state, (ofDeclarations ds).compile.lexemeState? key = some state ∧
        (ofDeclarations ds).compile.kindOf state = kind) ↔
      ∃ text, (ofDeclarations ds).normal text = key.toList ∧
        (ofDeclarations ds).owner? key.toList = some (.exact kind text) := by
  rw [← Option.map_eq_some_iff]
  by_cases empty : key = ""
  · subst empty
    rw [lexemeState?_empty]
    refine iff_of_false (by simp) ?_
    rintro ⟨text, spelt, owner⟩
    have held : Rule.exact kind text ∈ (ofDeclarations ds).rules :=
      List.mem_reverse.mp (List.mem_of_find?_eq_some owner)
    exact openText_ne_of_mem_rules held (normal_eq_nil_iff.mp spelt)
  · rw [map_kindOf_lexemeState? _ empty, Option.bind_eq_some_iff]
    constructor
    · rintro ⟨rule, owner, same⟩
      cases rule with
      | exact kind' text =>
          obtain rfl : kind' = kind := Option.some.inj same
          have spelt := normal_of_owner? owner
          exact ⟨text, spelt, owner⟩
      | comment opening closing | literal border escape => cases same
    · rintro ⟨text, -, owner⟩
      exact ⟨_, owner, rfl⟩

end RuleSet

/-- The index of a rule set has exactly the texts of the exact rules that own them, with states of
their kinds. It gives no state to two texts and every state of an exact kind to some text, so texts
and states can be looked up both ways, in whatever order the entries are kept. -/
theorem lexeme_index_one_to_one (ds : List Declaration) :
    let r := RuleSet.ofDeclarations ds
    let t := r.compile
    (∀ (key : String) (kind : TokenKind),
      (∃ state, t.lexemeState? key = some state ∧ t.kindOf state = kind) ↔
        ∃ text, r.normal text = key.toList ∧ r.owner? key.toList = some (.exact kind text)) ∧
    (∀ (key key' : String) (state : StateId),
      t.lexemeState? key = some state → t.lexemeState? key' = some state → key = key') ∧
    (∀ state : StateId,
      (t.kindOf state).isExact = true ↔ ∃ key, t.lexemeState? key = some state) ∧
    ∀ (state : StateId) (key : String),
      (t.lexemeOf? state = some key ↔ t.lexemeState? key = some state) ∧
      ∀ entries : List (String × StateId), entries.Perm t.lexemes.toList →
        ((entries.find? (·.2 == state)).map (·.1) = some key ↔
          t.lexemeState? key = some state) := by
  intro r t
  have formed := r.blueprint_formed
  have inj : ∀ (key key' : String) (state : StateId), t.lexemeState? key = some state →
      t.lexemeState? key' = some state → key = key' := fun _ _ _ found found' =>
    Blueprint.lexemeState?_inj formed.forest.opening found found'
  have ordered : ∀ (state : StateId) (key : String) (entries : List (String × StateId)),
      entries.Perm t.lexemes.toList →
      ((entries.find? (·.2 == state)).map (·.1) = some key ↔
        t.lexemeState? key = some state) := by
    intro state key entries perm
    have held : ∀ {key : String} {state : StateId}, (key, state) ∈ entries ↔
        t.lexemeState? key = some state := fun {_ _} =>
      perm.mem_iff.trans Std.ExtTreeMap.mem_toList_iff_getElem?_eq_some
    refine (find?_snd_eq_some_iff fun a b state one other => ?_).trans held
    exact inj a b state (held.mp one) (held.mp other)
  refine ⟨fun _ _ => RuleSet.exists_lexemeState?_iff, inj, fun state => ⟨?_, ?_⟩, ?_⟩
  · exact formed.exists_lexemeState?_eq
  · rintro ⟨key, found⟩
    have exact := RuleSet.isExact_of_lexemeState? found
    rw [Option.any_eq_true] at exact
    obtain ⟨kind, gathered, closed⟩ := exact
    rwa [Tables.kindOf, gathered, Option.getD_some]
  · exact fun state key => ⟨ordered state key _ (List.Perm.refl _), ordered state key⟩

/-- A keyword whose folded text a later comment takes over is not in the index; an operator that
another one begins with is, and its state leads back to it. -/
theorem overwritten_keyword_is_not_indexed :
    let r := RuleSet.ofDeclarations
      [.keywords ["IF", "Do"], .comment "if" "fi", .operators ["<", "<="], .ignoreCase true]
    let t := r.compile
    (∀ state, t.lexemeState? "if" ≠ some state) ∧
      ∃ state, t.lexemeState? "<=" = some state ∧ t.kindOf state = .operator ∧
        t.lexemeOf? state = some "<=" := by
  intro r t
  obtain ⟨keys, -, -, back⟩ := lexeme_index_one_to_one
    [.keywords ["IF", "Do"], .comment "if" "fi", .operators ["<", "<="], .ignoreCase true]
  constructor
  · intro state found
    obtain ⟨text, -, owner⟩ := (keys "if" (t.kindOf state)).mp ⟨state, found, rfl⟩
    have overwritten : r.owner? "if".toList = some (.comment "if" "fi") := by decide +kernel
    rw [overwritten] at owner
    cases owner
  · obtain ⟨state, found, kind⟩ := (keys "<=" .operator).mpr
      ⟨"<=", by decide +kernel, by decide +kernel⟩
    exact ⟨state, found, kind, (back state "<=").1.mpr found⟩

end TableLexer
