import TableLexer.Proofs.Layout
import TableLexer.RuleSet

/-!
# Ownership of opening texts

Every rule begins with an opening text. Several rules may begin with the same one; the last of
them owns it. The forest of a rule set says so in terms of paths: the paths of the opening trie
are the prefixes of the opening texts, and what a path does is decided by its owner. A comment or
a literal that owns its opening text finds its own closing trie there, whatever was registered in
between.
-/

namespace TableLexer

namespace Rule

/-- The text with which a rule begins. -/
def openText : Rule → String
  | exact _ text => text
  | comment opening _ => opening
  | literal border _ => border

/-- Exact rules are keywords and operators. -/
def Valid : Rule → Prop
  | exact kind _ => kind.isExact = true
  | comment _ _ | literal _ _ => True

end Rule

namespace Declaration

theorem valid_of_mem_rules {d : Declaration} {rule : Rule} (mem : rule ∈ d.rules) : rule.Valid := by
  cases d with
  | keywords texts | operators texts =>
      obtain ⟨text, -, rfl⟩ := List.mem_map.mp mem
      rfl
  | comment opening closing | lineComment opening | literal border escape =>
      simp only [rules] at mem
      split at mem
      · cases mem
      · rw [List.mem_singleton.mp mem]
        trivial
  | separators chars | ignoreCase on | skipSeparators on => cases mem

theorem openText_ne_of_mem_rules {d : Declaration} {rule : Rule} (mem : rule ∈ d.rules) :
    rule.openText ≠ "" := by
  cases d with
  | keywords texts | operators texts =>
      obtain ⟨text, kept, rfl⟩ := List.mem_map.mp mem
      simpa [Rule.openText] using (List.mem_filter.mp kept).2
  | comment opening closing | lineComment opening | literal border escape =>
      simp only [rules] at mem
      split at mem
      · cases mem
      · next nonempty =>
          rw [List.mem_singleton.mp mem]
          exact nonempty
  | separators chars | ignoreCase on | skipSeparators on => cases mem

end Declaration

namespace RuleSet

theorem rules_declare (r : RuleSet) (d : Declaration) :
    (r.declare d).rules = r.rules ++ d.rules := by
  cases d <;> rfl

/-- The rules of declarations are kept in their order. -/
theorem rules_ofDeclarations (ds : List Declaration) :
    (ofDeclarations ds).rules = ds.flatMap Declaration.rules := by
  have added : ∀ r : RuleSet,
      (ds.foldl declare r).rules = r.rules ++ ds.flatMap Declaration.rules := by
    induction ds with
    | nil => simp
    | cons d ds ih =>
        intro r
        rw [List.foldl_cons, ih, rules_declare, List.flatMap_cons, List.append_assoc]
  exact added empty

/-- Declarations make exact rules of keywords and operators only. -/
theorem valid_of_mem_rules {ds : List Declaration} {rule : Rule}
    (mem : rule ∈ (ofDeclarations ds).rules) : rule.Valid := by
  rw [rules_ofDeclarations] at mem
  obtain ⟨d, -, made⟩ := List.mem_flatMap.mp mem
  exact Declaration.valid_of_mem_rules made

/-- Declarations make no rule without an opening text. -/
theorem openText_ne_of_mem_rules {ds : List Declaration} {rule : Rule}
    (mem : rule ∈ (ofDeclarations ds).rules) : rule.openText ≠ "" := by
  rw [rules_ofDeclarations] at mem
  obtain ⟨d, -, made⟩ := List.mem_flatMap.mp mem
  exact Declaration.openText_ne_of_mem_rules made

/-- The rule that owns an opening text: the last one that was registered with it. -/
def owner? (r : RuleSet) (path : List Char) : Option Rule :=
  r.rules.reverse.find? fun rule => r.normal rule.openText == path

/-- What the owner of a text makes of it in a forest. -/
def Plants (r : RuleSet) (f : RuleForest) (accept : Accept) : Rule → Prop
  | .exact kind _ => accept = .exact kind
  | .comment _ closing => ∃ i, accept = .opens (.comment i) ∧
      f.comments[i]? = some (commentTrie (r.normal closing))
  | .literal border escape => ∃ i, accept = .opens (.literal i) ∧
      f.literals[i]? = some (literalTrie (r.normal border) (r.normal escape))

/-- A forest in which every opening text is there and belongs to its owner. -/
structure Planted (r : RuleSet) (rules : List Rule) (f : RuleForest) : Prop extends f.Formed where
  contains_iff : ∀ path, f.opening.contains path = true ↔
    path ≠ [] ∧ ∃ rule ∈ rules, path <+: r.normal rule.openText
  owned : ∀ path, path ≠ [] →
    match rules.reverse.find? fun rule => r.normal rule.openText == path with
    | none => f.opening.accept? path = none
    | some rule => ∃ accept, f.opening.accept? path = some accept ∧ r.Plants f accept rule

theorem commentTrie_eq (closing : List Char) :
    commentTrie closing = RuleTrie.empty.enter ⟨closing, .close .comment, false⟩ := rfl

theorem literalTrie_eq (border escape : List Char) : literalTrie border escape =
    if escape.isEmpty then RuleTrie.empty.enter ⟨border, .close .literal, false⟩
    else (RuleTrie.empty.enter ⟨border, .close .literal, false⟩).enter
      ⟨escape ++ border, .close .literal, true⟩ := rfl

theorem commentTrie_formed (closing : List Char) : (commentTrie closing).Formed := by
  rw [commentTrie_eq]
  exact RuleTrie.Formed.empty.enter _

theorem literalTrie_formed (border escape : List Char) : (literalTrie border escape).Formed := by
  rw [literalTrie_eq]
  split
  · exact RuleTrie.Formed.empty.enter _
  · exact (RuleTrie.Formed.empty.enter _).enter _

variable {r : RuleSet} {f : RuleForest} {accept : Accept} {rule other : Rule}

/-- Planting a rule registers its opening text with what the rule makes of it. -/
theorem exists_opening_plant (r : RuleSet) (f : RuleForest) (rule : Rule) :
    ∃ accept, (r.plant f rule).opening = f.opening.enter ⟨r.normal rule.openText, accept, false⟩ ∧
      r.Plants (r.plant f rule) accept rule := by
  cases rule with
  | exact kind text => exact ⟨.exact kind, rfl, rfl⟩
  | comment opening closing =>
      exact ⟨.opens (.comment f.comments.length), rfl, f.comments.length, rfl, by simp [plant]⟩
  | literal border escape =>
      exact ⟨.opens (.literal f.literals.length), rfl, f.literals.length, rfl, by simp [plant]⟩

/-- Planting a rule takes no closing trie away. -/
theorem exists_append_plant (r : RuleSet) (f : RuleForest) (rule : Rule) :
    (∃ more, (r.plant f rule).comments = f.comments ++ more) ∧
      ∃ more, (r.plant f rule).literals = f.literals ++ more := by
  cases rule with
  | exact kind text => exact ⟨⟨[], by simp [plant]⟩, [], by simp [plant]⟩
  | comment opening closing => exact ⟨⟨_, rfl⟩, [], by simp [plant]⟩
  | literal border escape => exact ⟨⟨[], by simp [plant]⟩, _, rfl⟩

theorem Plants.plant (h : r.Plants f accept rule) (other : Rule) :
    r.Plants (r.plant f other) accept rule := by
  obtain ⟨⟨comments, hc⟩, ⟨literals, hl⟩⟩ := r.exists_append_plant f other
  cases rule with
  | exact kind text => exact h
  | comment opening closing =>
      obtain ⟨i, same, found⟩ := h
      have inside := (List.getElem?_eq_some_iff.mp found).1
      exact ⟨i, same, by rw [hc, List.getElem?_append_left inside, found]⟩
  | literal border escape =>
      obtain ⟨i, same, found⟩ := h
      have inside := (List.getElem?_eq_some_iff.mp found).1
      exact ⟨i, same, by rw [hl, List.getElem?_append_left inside, found]⟩

theorem Plants.mem_regions {region : Region} (h : r.Plants f (.opens region) rule) :
    region ∈ f.regions := by
  cases rule with
  | exact kind text => cases h
  | comment opening closing =>
      obtain ⟨i, same, found⟩ := h
      rw [Accept.opens.inj same]
      exact RuleForest.mem_regions.mpr (List.getElem?_eq_some_iff.mp found).1
  | literal border escape =>
      obtain ⟨i, same, found⟩ := h
      rw [Accept.opens.inj same]
      exact RuleForest.mem_regions.mpr (List.getElem?_eq_some_iff.mp found).1

theorem mem_regions_plant {region : Region} (mem : region ∈ f.regions) (rule : Rule) :
    region ∈ (r.plant f rule).regions := by
  obtain ⟨⟨comments, hc⟩, ⟨literals, hl⟩⟩ := r.exists_append_plant f rule
  rw [RuleForest.mem_regions] at mem ⊢
  cases region with
  | comment i =>
      rw [hc, List.length_append]
      omega
  | literal i =>
      rw [hl, List.length_append]
      omega

/-- The closing tries of a planted rule are well formed. -/
theorem plant_formed (h : f.Formed) (rule : Rule) : (r.plant f rule).Formed := by
  obtain ⟨accept, opening, plants⟩ := r.exists_opening_plant f rule
  refine ⟨opening ▸ h.opening.enter _, ?_, ?_, ?_⟩
  · intro t mem
    cases rule with
    | comment text closing =>
        obtain old | new := List.mem_append.mp mem
        · exact h.comments t old
        · exact List.mem_singleton.mp new ▸ commentTrie_formed _
    | exact kind text | literal border escape => exact h.comments t mem
  · intro t mem
    cases rule with
    | literal border escape =>
        obtain old | new := List.mem_append.mp mem
        · exact h.literals t old
        · exact List.mem_singleton.mp new ▸ literalTrie_formed _ _
    | exact kind text | comment text closing => exact h.literals t mem
  · intro path region found
    rw [opening, h.opening.accept?_enter] at found
    split at found
    · cases Option.some.inj found
      exact plants.mem_regions
    · exact mem_regions_plant (h.opens_mem found) rule

namespace Planted

variable {rules : List Rule}

theorem empty (r : RuleSet) : r.Planted [] .empty where
  opening := .empty
  comments := by simp [RuleForest.empty]
  literals := by simp [RuleForest.empty]
  opens_mem found := by simp [RuleForest.empty, RuleTrie.accept?] at found
  contains_iff path := by simp [RuleForest.empty, RuleTrie.contains_eq_isSome]
  owned path _ := rfl

/-- A rule takes over its opening text and leaves all others to their owners. -/
theorem plant (h : r.Planted rules f) (rule : Rule) :
    r.Planted (rules ++ [rule]) (r.plant f rule) := by
  obtain ⟨accept, opening, plants⟩ := r.exists_opening_plant f rule
  refine ⟨plant_formed h.toFormed rule, fun path => ?_, fun path nonempty => ?_⟩
  · rw [opening, RuleTrie.contains_enter, h.contains_iff, ← and_or_left]
    simp only [List.mem_append, List.mem_singleton, or_and_right, exists_or, exists_eq_left]
  · rw [List.reverse_append, List.reverse_singleton, List.singleton_append, List.find?_cons,
      opening, h.opening.accept?_enter]
    by_cases own : r.normal rule.openText = path
    · have mine : path ≠ [] ∧ path = r.normal rule.openText := ⟨nonempty, own.symm⟩
      rw [beq_iff_eq.mpr own]
      exact ⟨accept, if_pos mine, plants⟩
    · have apart : ¬ (path ≠ [] ∧ path = r.normal rule.openText) := fun mine => own mine.2.symm
      have old := h.owned path nonempty
      rw [beq_eq_false_iff_ne.mpr own, if_neg apart]
      dsimp only
      split
      · next none => simpa [none] using old
      · next owner found =>
          simp only [found] at old
          obtain ⟨held, same, planted⟩ := old
          exact ⟨held, same, planted.plant rule⟩

end Planted

/-- The forest of a rule set gives every opening text to its owner. -/
theorem planted (r : RuleSet) : r.Planted r.rules r.forest := by
  suffices ∀ (rules done : List Rule) (f : RuleForest), r.Planted done f →
      r.Planted (done ++ rules) (rules.foldl r.plant f) from this r.rules [] .empty (.empty r)
  intro rules
  induction rules with
  | nil => exact fun done f h => by simpa using h
  | cons rule rules ih =>
      intro done f h
      simpa using ih (done ++ [rule]) _ (h.plant rule)

theorem forest_formed (r : RuleSet) : r.forest.Formed := r.planted.toFormed

/-- A path of the opening trie does what its owner says, or it is no opening text. -/
theorem accept?_forest (r : RuleSet) {path : List Char} (nonempty : path ≠ []) :
    match r.owner? path with
    | none => r.forest.opening.accept? path = none
    | some rule => ∃ accept, r.forest.opening.accept? path = some accept ∧
        r.Plants r.forest accept rule := r.planted.owned path nonempty

end RuleSet

end TableLexer
