import TableLexer.Proofs.Refinement

/-!
# The first token of a text

Where case counts, a text that begins with the opening text of a comment or a literal begins with
a token of it, provided that the rule owns the opening text and no other opening text is longer.
The token consists of the opening text and of what the rule takes as the body.
-/

namespace TableLexer

/-- The first of some tokens has the given kind and text. -/
def StartWith (kind : TokenKind) (tokens : List Token) (text : List Char) : Prop :=
  ∃ token more, tokens = token :: more ∧ token.kind = kind ∧ token.text.toList = text

theorem StartWith.unique {kind kind' : TokenKind} {tokens : List Token} {text text' : List Char}
    (h : StartWith kind tokens text) (h' : StartWith kind' tokens text') : text = text' := by
  obtain ⟨token, more, rfl, -, rfl⟩ := h
  obtain ⟨_, _, ⟨⟩, -, rfl⟩ := h'
  rfl

/-- Only word text joins what follows it, and a rule with a body makes none. -/
theorem Rule.kind_ne_word {rule : Rule} (opens : rule.exactKind? = none) : rule.kind ≠ .word := by
  cases rule with
  | exact kind text => cases opens
  | comment opening closing | literal border escape => exact TokenKind.noConfusion

namespace RuleSet

variable {rule : Rule}

/-- An opening text that no other one continues is cut off with the body behind it. -/
theorem cut_opening {r : RuleSet} (opens : rule.exactKind? = none) {c : Char} {path : List Char}
    (spelt : rule.openText.toList = c :: path)
    (owner : r.lastRule? rule.openText.toList = some rule)
    (longest : ∀ other ∈ r.rules, rule.openText.toList <+: other.openText.toList →
      other.openText = rule.openText) (input : List Char) :
    (r.cut c (path ++ input)).segment =
      ⟨rule.kind, rule.openText.toList ++ (rule.body input).1, ()⟩ := by
  have held : rule ∈ r.rules := List.mem_reverse.mp (List.mem_of_find?_eq_some owner)
  have begun : begins r.openTexts rule.openText.toList = true :=
    begins_iff.mpr ⟨_, List.mem_map_of_mem held, List.prefix_rfl⟩
  have stop : ∀ d ∈ input.head?, begins r.openTexts (rule.openText.toList ++ [d]) = false := by
    intro d _
    rw [Bool.eq_false_iff]
    intro further
    obtain ⟨text, mem, continued⟩ := begins_iff.mp further
    obtain ⟨other, listed, rfl⟩ := List.mem_map.mp mem
    have same := longest other listed ((List.prefix_append _ _).trans continued)
    have lengths := (same ▸ continued).length_le
    rw [List.length_append, List.length_singleton] at lengths
    omega
  have whole : longestBeginning r.openTexts (c :: (path ++ input)) = c :: path := by
    rw [← List.cons_append, ← spelt]
    exact longestBeginning_append (.inr begun) stop
  rw [cut, whole]
  simp only [List.drop_left, cutOpening, ← spelt, owner]
  cases rule with
  | exact kind text => cases opens
  | comment opening closing | literal border escape => rfl

/-- A text that begins like a comment or a literal begins with one, and its body is divided as the
rule says. -/
theorem tokenize_opening {ds : List Declaration} (rule : Rule)
    (sensitive : (ofDeclarations ds).ignoreCase = false) (opens : rule.exactKind? = none)
    (owner : (ofDeclarations ds).lastRule? rule.openText.toList = some rule)
    (longest : ∀ other ∈ (ofDeclarations ds).rules,
      rule.openText.toList <+: other.openText.toList → other.openText = rule.openText)
    (text : String) :
    StartWith rule.kind ((ofDeclarations ds).compile.tokenize (rule.openText ++ text) false)
      (rule.openText.toList ++ (rule.body text.toList).1) := by
  have held : rule ∈ (ofDeclarations ds).rules :=
    List.mem_reverse.mp (List.mem_of_find?_eq_some owner)
  have nonempty : rule.openText.toList ≠ [] := by
    simpa using openText_ne_of_mem_rules held
  obtain ⟨c, path, spelt⟩ := List.exists_cons_of_ne_nil nonempty
  have first := cut_opening opens spelt owner longest text.toList
  have outlines := map_outline_tokenize sensitive (rule.openText ++ text)
  rw [lex, String.toList_append, spelt, List.cons_append, cutAll, first,
    Segment.join_cons_of_ne_word (show rule.kind ≠ .word from rule.kind_ne_word opens),
    Segment.locate] at outlines
  obtain ⟨token, more, tokens, outline, -⟩ := List.map_eq_cons_iff.mp outlines
  refine ⟨token, more, tokens, congrArg (·.2.kind) outline, ?_⟩
  exact congrArg (·.2.text) outline

end RuleSet

end TableLexer
