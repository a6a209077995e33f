import TableLexer.Proofs.Reference
import TableLexer.Proofs.Spelling

/-!
# Bodies of comments and literals

The closing trie of a rule holds the texts that matter in the body, and no others. A body is read
by the longest beginnings of these texts: from the body place the automaton climbs the trie as far
as the characters allow, and then ends the token or goes on in the body.
-/

namespace TableLexer

/-- The paths of a trie are the beginnings of the given texts, the empty one apart. -/
def RuleTrie.Holds (t : RuleTrie) (texts : List (List Char)) : Prop :=
  ∀ path, t.contains path = true ↔ path ≠ [] ∧ begins texts path = true

namespace RuleTrie

variable {t : RuleTrie} {texts : List (List Char)} {path left : List Char}

theorem Holds.begins_eq (h : t.Holds texts) (path : List Char) (c : Char) :
    begins texts (path ++ [c]) = t.contains (path ++ [c]) := by
  rw [Bool.eq_iff_iff, h]
  simp

/-- Where a trie cannot be climbed further, the longest beginning has been read. -/
theorem Holds.longestBeginning_eq (h : t.Holds texts) (start : path = [] ∨ t.contains path = true)
    (stop : ∀ c ∈ left.head?, t.contains (path ++ [c]) = false) :
    longestBeginning texts (path ++ left) = path := by
  apply longestBeginning_append (start.imp_right fun held => ((h path).mp held).2)
  intro c mem
  rw [h.begins_eq]
  exact stop c mem

theorem Holds.longestBeginning_eq_nil (h : t.Holds texts) {c : Char} (free : t.contains [c] = false)
    (rest : List Char) : longestBeginning texts (c :: rest) = [] := by
  rw [← List.nil_append (c :: rest)]
  apply h.longestBeginning_eq (.inl rfl)
  intro d mem
  cases mem
  exact free

/-- A text ends a body if it was entered last without the escape mark. -/
theorem Formed.endsBody_enter (h : t.Formed) (call : TrieCall) (path : List Char) :
    ((t.enter call).node? path).any TrieNode.endsBody =
      if path ≠ [] ∧ path = call.text then
        !call.escaped && !(t.node? path).any TrieNode.escape
      else (t.node? path).any TrieNode.endsBody := by
  rw [node?_enter]
  by_cases root : path = []
  · subst root
    simp [h.node?_nil]
  · by_cases here : path = call.text
    · cases held : t.node? call.text <;> cases escaped : call.escaped <;>
        simp [here ▸ root, here, held, TrieNode.endsBody, TrieNode.isFinal]
    · by_cases passed : path <+: call.text
      · cases t.node? path <;> simp [root, here, passed, TrieNode.endsBody, TrieNode.isFinal]
      · simp [here, passed]

end RuleTrie

/-- A region of an automaton in which the body of a rule is read. -/
structure Blueprint.Encloses (b : Blueprint) (region : Region) (rule : Rule) : Prop where
  kind_eq : region.kind = rule.kind
  holds : (b.forest.closing region).Holds rule.bodyTexts
  ends_iff : ∀ path, (b.forest.closing region).contains path = true →
    (((b.forest.closing region).node? path).any TrieNode.endsBody = true ↔ path = rule.closeText)

namespace RuleSet

variable {r : RuleSet} {rule : Rule} {region : Region}

theorem commentTrie_holds (closing : List Char) : (commentTrie closing).Holds [closing] := by
  intro path
  rw [commentTrie_eq, RuleTrie.contains_enter, begins_iff]
  simp [RuleTrie.contains_eq_isSome]

theorem literalTrie_holds (border escape : List Char) : (literalTrie border escape).Holds
    (if escape.isEmpty then [border] else [border, escape ++ border]) := by
  intro path
  rw [literalTrie_eq, begins_iff]
  split
  · rw [RuleTrie.contains_enter]
    simp [RuleTrie.contains_eq_isSome]
  · rw [RuleTrie.contains_enter, RuleTrie.contains_enter]
    simp [RuleTrie.contains_eq_isSome, and_or_left]

theorem endsBody_commentTrie (closing path : List Char) :
    ((commentTrie closing).node? path).any TrieNode.endsBody = true ↔
      path ≠ [] ∧ path = closing := by
  rw [commentTrie_eq, RuleTrie.Formed.empty.endsBody_enter]
  simp

/-- The border ends a literal, and after the escape text it does not. -/
theorem endsBody_literalTrie (border escape path : List Char) :
    ((literalTrie border escape).node? path).any TrieNode.endsBody = true ↔
      path ≠ [] ∧ path = border := by
  have plain : ((RuleTrie.empty.enter ⟨border, .close .literal, false⟩).node? path).any
      TrieNode.endsBody = true ↔ path ≠ [] ∧ path = border := by
    rw [RuleTrie.Formed.empty.endsBody_enter]
    simp
  rw [literalTrie_eq]
  split
  · exact plain
  · next more =>
      rw [(RuleTrie.Formed.empty.enter _).endsBody_enter]
      split
      · next escaped =>
          have apart : path ≠ border := by
            rintro rfl
            exact more (by simpa using escaped.2)
          simp [apart]
      · exact plain

/-- Where case counts, the owner of an opening text is the rule whose body follows. -/
theorem Plants.encloses (sensitive : r.ignoreCase = false)
    (plants : r.Plants r.forest (.opens region) rule) : r.blueprint.Encloses region rule := by
  cases rule with
  | exact kind text => cases plants
  | comment opening closing =>
      obtain ⟨i, same, found⟩ := plants
      cases same
      have trie : r.blueprint.forest.closing (.comment i) = commentTrie closing.toList := by
        rw [← normal_of_sensitive sensitive]
        exact congrArg (·.getD .empty) found
      refine ⟨rfl, trie ▸ commentTrie_holds _, fun path held => ?_⟩
      rw [trie, endsBody_commentTrie]
      exact and_iff_right ((commentTrie_holds _ path).mp (trie ▸ held)).1
  | literal border escape =>
      obtain ⟨i, same, found⟩ := plants
      cases same
      have trie : r.blueprint.forest.closing (.literal i) =
          literalTrie border.toList escape.toList := by
        rw [← normal_of_sensitive sensitive, ← normal_of_sensitive sensitive]
        exact congrArg (·.getD .empty) found
      have texts : (Rule.literal border escape).bodyTexts =
          if escape.toList.isEmpty then [border.toList]
          else [border.toList, escape.toList ++ border.toList] := by
        simp [Rule.bodyTexts]
      refine ⟨rfl, trie ▸ texts ▸ literalTrie_holds _ _, fun path held => ?_⟩
      rw [trie, endsBody_literalTrie]
      exact and_iff_right ((literalTrie_holds _ _ path).mp (trie ▸ held)).1

end RuleSet

/-- A cut with more text in front. -/
def Cut.after (front : List Char) (cut : Cut) : Cut :=
  { cut with segment := { cut.segment with text := front ++ cut.segment.text } }

@[simp] theorem Cut.after_nil (cut : Cut) : cut.after [] = cut := rfl

theorem Cut.after_after (front back : List Char) (cut : Cut) :
    (cut.after back).after front = cut.after (front ++ back) := by
  simp only [Cut.after, List.append_assoc]

namespace Blueprint

variable {b : Blueprint} {place other : Place}

/-- What is cut off by reading on from a place. -/
def cutFrom (b : Blueprint) (place : Place) (input : List Char) : Cut :=
  ⟨⟨b.forest.kindAt (b.munch place input).place, (b.munch place input).text, ()⟩,
    (b.munch place input).rest⟩

@[simp] theorem cutFrom_nil (place : Place) :
    b.cutFrom place [] = ⟨⟨b.forest.kindAt place, [], ()⟩, []⟩ := rfl

theorem cutFrom_cons (place : Place) (c : Char) (rest : List Char) : b.cutFrom place (c :: rest) =
    if (b.onward place (some c)).consumes then (b.cutFrom (b.onward place (some c)) rest).after [c]
    else ⟨⟨b.forest.kindAt place, [], ()⟩, c :: rest⟩ := by
  simp only [cutFrom, munch_cons]
  split <;> rfl

/-- Reading on depends on the kind of a place and on where the next character leads. -/
theorem cutFrom_congr {input : List Char} (kind : b.forest.kindAt place = b.forest.kindAt other)
    (next : ∀ c ∈ input.head?, b.onward place (some c) = b.onward other (some c)) :
    b.cutFrom place input = b.cutFrom other input := by
  cases input with
  | nil => rw [cutFrom_nil, cutFrom_nil, kind]
  | cons c rest => rw [cutFrom_cons, cutFrom_cons, next c rfl, kind]

/-- From a place of a trie, the trie is climbed as far as the text allows. -/
theorem exists_climb {t : RuleTrie} (child : List Char → Place)
    (reads : ∀ path, (child path).consumes = true)
    (climbs : ∀ path c, t.contains (path ++ [c]) = true →
      b.onward (child path) (some c) = child (path ++ [c]))
    {path : List Char} (held : t.contains path = true) (input : List Char) :
    ∃ more left, input = more ++ left ∧ t.contains (path ++ more) = true ∧
      (∀ c ∈ left.head?, t.contains (path ++ more ++ [c]) = false) ∧
      b.cutFrom (child path) input = (b.cutFrom (child (path ++ more)) left).after more := by
  induction input generalizing path with
  | nil => exact ⟨[], [], rfl, by simpa using held, by simp, by simp⟩
  | cons c rest ih =>
      by_cases further : t.contains (path ++ [c]) = true
      · obtain ⟨more, left, rfl, top, stop, cut⟩ := ih further
        have whole : path ++ c :: more = path ++ [c] ++ more := by simp
        refine ⟨c :: more, left, rfl, whole ▸ top, whole ▸ stop, ?_⟩
        rw [cutFrom_cons, climbs path c further, if_pos (reads _), cut, Cut.after_after, whole]
        rfl
      · refine ⟨[], c :: rest, rfl, by simpa using held, fun d mem => ?_, by simp⟩
        cases mem
        simpa using further

namespace Legible

variable {declared : List Char} {region : Region} {rule : Rule}

/-- What has been read of a text that matters is passed, unless it ends the body. -/
theorem cutFrom_closing (h : b.Legible declared) (encloses : b.Encloses region rule)
    {path left : List Char} (held : (b.forest.closing region).contains path = true)
    (stop : ∀ c ∈ left.head?, (b.forest.closing region).contains (path ++ [c]) = false) :
    b.cutFrom (.closing region path) left =
      if path = rule.closeText then ⟨⟨rule.kind, [], ()⟩, left⟩
      else b.cutFrom (.body region) left := by
  split
  · next ends =>
      rw [← encloses.kind_eq]
      cases left with
      | nil => rfl
      | cons c left =>
          have leads : b.onward (.closing region path) (some c) = .endToken := by
            rw [h.onward_closing, stop c rfl, if_pos ((encloses.ends_iff path held).mpr ends)]
            rfl
          rw [cutFrom_cons, leads]
          rfl
  · next passed =>
      refine cutFrom_congr rfl fun c mem => ?_
      have back := mt (encloses.ends_iff path held).mp passed
      rw [h.onward_closing, stop c mem, if_neg back]
      rfl

/-- From a body, the closing trie is climbed if the next character begins a text that matters. -/
theorem cutFrom_body_of_contains (h : b.Legible declared) (encloses : b.Encloses region rule)
    {c : Char} (held : (b.forest.closing region).contains [c] = true) (rest : List Char) :
    ∃ more left, rest = more ++ left ∧ longestBeginning rule.bodyTexts (c :: rest) = c :: more ∧
      b.cutFrom (.body region) (c :: rest) =
        (if c :: more = rule.closeText then ⟨⟨rule.kind, [], ()⟩, left⟩
          else b.cutFrom (.body region) left : Cut).after (c :: more) := by
  have climbs : ∀ path c, (b.forest.closing region).contains (path ++ [c]) = true →
      b.onward (.closing region path) (some c) = .closing region (path ++ [c]) := by
    intro path c further
    rw [h.onward_closing, if_pos further]
  obtain ⟨more, left, rfl, top, stop, cut⟩ :=
    exists_climb (.closing region) (fun _ => rfl) climbs held rest
  refine ⟨more, left, rfl, encloses.holds.longestBeginning_eq (.inr top) stop, ?_⟩
  rw [h.cutFrom_closing encloses top stop] at cut
  rw [cutFrom_cons, h.onward_body, if_pos held, cut, Cut.after_after]
  rfl

/-- The body of a rule is read as the rule says. -/
theorem cutFrom_body (h : b.Legible declared) (encloses : b.Encloses region rule)
    (input : List Char) : b.cutFrom (.body region) input =
      ⟨⟨rule.kind, (rule.body input).1, ()⟩, (rule.body input).2⟩ := by
  -- The closing trie is climbed wherever some beginning has been found.
  have starts : ∀ {c d : Char} {rest path : List Char},
      longestBeginning rule.bodyTexts (c :: rest) = d :: path →
      (b.forest.closing region).contains [c] = true := by
    intro c d rest path found
    apply Bool.of_not_eq_false
    intro free
    rw [encloses.holds.longestBeginning_eq_nil free] at found
    cases found
  induction input using Rule.body.induct rule with
  | case1 =>
      rw [Rule.body, cutFrom_nil, ← encloses.kind_eq]
      rfl
  | case2 c rest none ih =>
      have free : (b.forest.closing region).contains [c] ≠ true := fun held => by
        obtain ⟨more, left, -, longest, -⟩ := h.cutFrom_body_of_contains encloses held rest
        rw [none] at longest
        cases longest
      rw [Rule.body, none, cutFrom_cons, h.onward_body, if_neg free, ih]
      rfl
  | case3 c rest d path found ends =>
      obtain ⟨more, left, rfl, longest, cut⟩ :=
        h.cutFrom_body_of_contains encloses (starts found) rest
      rw [found] at longest
      cases longest
      rw [cut, Rule.body, found]
      simp [Cut.after, ends]
  | case4 c rest d path found apart ih =>
      obtain ⟨more, left, rfl, longest, cut⟩ :=
        h.cutFrom_body_of_contains encloses (starts found) rest
      rw [found] at longest
      cases longest
      rw [List.drop_left] at ih
      rw [cut, Rule.body, found, if_neg apart, ih]
      simp [Cut.after, apart]

end Legible

end Blueprint

end TableLexer
