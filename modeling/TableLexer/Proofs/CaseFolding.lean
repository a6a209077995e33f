import TableLexer.Proofs.CaseRuns
import TableLexer.Proofs.Scanning
import TableLexer.Proofs.Spelling

/-!
# Scanning where case is ignored

Where case is ignored, rule texts are in lower case and each of their characters takes its
upper-case form into its column, unless another character was there first. So two characters of the
rules never share a column, and a variant belongs to the first of them that has it. A text is then
scanned as the rule text that its characters belong to.
-/

namespace TableLexer

namespace Text

/-- The first of some characters that has the given one as a case variant. -/
def variantOf? (cs : List Char) (d : Char) : Option Char :=
  cs.find? fun c => (caseVariants c).contains d

theorem variantOf?_eq_some {cs : List Char} {c d : Char} (first : variantOf? cs d = some c) :
    c ∈ cs ∧ d ∈ caseVariants c := by
  refine ⟨List.mem_of_find?_eq_some first, ?_⟩
  simpa using List.find?_some first

theorem variantOf?_eq_none {cs : List Char} {d : Char} :
    variantOf? cs d = none ↔ ∀ c ∈ cs, d ∉ caseVariants c := by
  simp [variantOf?]

theorem variantOf?_concat (cs : List Char) (c d : Char) : variantOf? (cs ++ [c]) d =
    (variantOf? cs d).or (if d ∈ caseVariants c then some c else none) := by
  simp [variantOf?, List.find?_append, List.find?_singleton]

end Text

namespace Alphabet

open Text

/-- What becomes of an alphabet where case is ignored and the given characters are registered: they
own different columns, their variants share the column of the first that has them, and all other
characters are as before. -/
structure Folds (base a : Alphabet) (cs : List Char) : Prop where
  inRange : a.InRange
  shares : ∀ {c d : Char}, variantOf? cs d = some c → a.symbols[d]? = a.symbols[c]?
  owns : ∀ {c : Char}, c ∈ cs → a.OwnsColumn c
  apart : ∀ {c d : Char}, c ∈ cs → d ∈ cs → a.symbols[c]? = a.symbols[d]? → c = d
  others : ∀ {d : Char}, variantOf? cs d = none → a.symbols[d]? = base.symbols[d]?

namespace Folds

variable {base a : Alphabet} {cs : List Char} {c : Char}

theorem refl (h : base.InRange) : base.Folds base [] where
  inRange := h
  shares first := by cases first
  owns mem := by cases mem
  apart mem := by cases mem
  others _ := rfl

theorem getElem?_insert (m : Std.ExtTreeMap Char Symbol) (c d : Char) (s : Symbol) :
    (m.insert c s)[d]? = if d = c then some s else m[d]? := by
  rw [Std.ExtTreeMap.getElem?_insert]
  exact if_congr (Std.LawfulEqCmp.compare_eq_iff_eq.trans eq_comm) rfl rfl

theorem getElem?_insertIfNew (m : Std.ExtTreeMap Char Symbol) (c d : Char) (s : Symbol) :
    (m.insertIfNew c s)[d]? = if d = c then some ((m[c]?).getD s) else m[d]? := by
  rw [Std.ExtTreeMap.getElem?_insertIfNew]
  by_cases same : d = c
  · subst same
    cases held : m[d]? with
    | none => simp [Std.ExtTreeMap.mem_iff_isSome_getElem?, held]
    | some x => simp [Std.ExtTreeMap.mem_iff_isSome_getElem?, held]
  · have apart : ¬ (compare c d = .eq ∧ c ∉ m) := fun both =>
      same (Std.LawfulEqCmp.compare_eq_iff_eq.mp both.1).symm
    rw [if_neg apart, if_neg same]

/-- What a fresh column for a character in lower case changes. -/
theorem symbols_allot (lower : Unicode.toLower c = c) (d : Char) :
    (a.allot c true).symbols[d]? =
      if d = c then some a.size
      else if d ∈ caseVariants c then some ((a.symbols[d]?).getD a.size)
      else a.symbols[d]? := by
  simp only [allot, if_true, caseVariants, lower, List.foldl_cons, List.foldl_nil,
    getElem?_insertIfNew, getElem?_insert, Option.getD_some]
  by_cases same : d = c
  · subst same
    by_cases upper : d = Unicode.toUpper d
    · simp [← upper]
    · simp [upper]
  · by_cases upper : d = Unicode.toUpper c
    · subst upper
      simp [same]
    · simp [same, upper]

/-- A character that was registered before changes nothing. -/
theorem register_of_mem (h : base.Folds a cs) (mem : c ∈ cs) :
    base.Folds (a.register c true) (cs ++ [c]) := by
  obtain ⟨s, found, own⟩ := h.owns mem
  have same : a.register c true = a := by
    simp only [register, found]
    exact if_neg own
  have variants : ∀ d, variantOf? (cs ++ [c]) d = variantOf? cs d := by
    intro d
    rw [variantOf?_concat]
    cases first : variantOf? cs d with
    | none => exact if_neg (variantOf?_eq_none.mp first c mem)
    | some e => rfl
  have member : ∀ {d}, d ∈ cs ++ [c] → d ∈ cs := by
    intro d held
    obtain old | new := List.mem_append.mp held
    · exact old
    · exact List.mem_singleton.mp new ▸ mem
  rw [same]
  refine ⟨h.inRange, fun first => ?_, fun held => h.owns (member held),
    fun hc hd => h.apart (member hc) (member hd), fun none => ?_⟩
  · exact h.shares (variants _ ▸ first)
  · exact h.others (variants _ ▸ none)

/-- A new character takes those of its variants that are free. -/
theorem register_of_not_mem (h : base.Folds a cs) (lower : ∀ d ∈ cs ++ [c], Unicode.toLower d = d)
    (free : ∀ d ∈ caseVariants c, base.symbols[d]? = none) (fresh : c ∉ cs) :
    base.Folds (a.register c true) (cs ++ [c]) := by
  have lower_c : Unicode.toLower c = c := lower c (by simp)
  have unclaimed : variantOf? cs c = none := variantOf?_eq_none.mpr fun d mem variant =>
    fresh ((mem_caseVariants_iff (lower d (by simp [mem])) lower_c).mp variant ▸ mem)
  have new : a.symbols[c]? = none := by
    rw [h.others unclaimed]
    exact free c ((mem_caseVariants_iff lower_c lower_c).mpr rfl)
  have range := h.inRange.register c true
  have allots : a.register c true = a.allot c true := by simp only [register, new]
  rw [allots] at range ⊢
  have cell := symbols_allot (a := a) lower_c
  have kept : ∀ {d : Char} {s : Symbol}, a.symbols[d]? = some s →
      (a.allot c true).symbols[d]? = some s := by
    intro d s found
    have other : d ≠ c := by
      rintro rfl
      rw [new] at found
      cases found
    rw [cell, if_neg other, found]
    exact ite_self _
  have own : (a.allot c true).symbols[c]? = some a.size := by rw [cell, if_pos rfl]
  have member : ∀ {d : Char}, d ∈ cs ++ [c] → d ∈ cs ∨ d = c := by simp
  refine ⟨range, ?_, ?_, ?_, ?_⟩
  · intro e d first
    rw [variantOf?_concat] at first
    cases earlier : variantOf? cs d with
    | some e' =>
        rw [earlier, Option.some_or] at first
        cases first
        obtain ⟨s, found, -⟩ := h.owns (variantOf?_eq_some earlier).1
        rw [kept found, kept ((h.shares earlier).trans found)]
    | none =>
        rw [earlier, Option.none_or, Option.ite_none_right_eq_some] at first
        obtain ⟨variant, same⟩ := first
        cases same
        rw [own, cell, if_pos variant, h.others earlier, free d variant]
        exact ite_self _
  · intro d mem
    obtain old | rfl := member mem
    · obtain ⟨s, found, own⟩ := h.owns old
      exact ⟨s, kept found, own⟩
    · exact ⟨a.size, own, Nat.ne_of_gt h.inRange.separator_lt_size⟩
  · have unlike : ∀ {d : Char}, d ∈ cs →
        (a.allot c true).symbols[d]? ≠ (a.allot c true).symbols[c]? := by
      intro d old same
      obtain ⟨s, found, -⟩ := h.owns old
      rw [kept found, own] at same
      exact Nat.ne_of_lt (h.inRange.symbol_mem found).2 (Option.some.inj same)
    intro e d he hd same
    obtain old | rfl := member he
    · obtain old' | rfl := member hd
      · obtain ⟨s, found, -⟩ := h.owns old
        obtain ⟨s', found', -⟩ := h.owns old'
        rw [kept found, kept found'] at same
        exact h.apart old old' ((found.trans same).trans found'.symm)
      · exact absurd same (unlike old)
    · obtain old' | rfl := member hd
      · exact absurd same.symm (unlike old')
      · rfl
  · intro d none
    rw [variantOf?_concat, Option.or_eq_none_iff, ite_eq_right_iff] at none
    have other : d ∉ caseVariants c := fun variant => Option.some_ne_none c (none.2 variant)
    have apart : d ≠ c := fun same =>
      other ((mem_caseVariants_iff lower_c (same ▸ lower_c)).mpr same)
    rw [cell, if_neg apart, if_neg other, h.others none.1]

/-- Registering characters in lower case of which no variant has a column yet. -/
theorem registerAll (h : base.InRange) (cs : List Char)
    (lower : ∀ c ∈ cs, Unicode.toLower c = c)
    (free : ∀ c ∈ cs, ∀ d ∈ caseVariants c, base.symbols[d]? = none) :
    base.Folds (base.registerAll cs true) cs := by
  suffices ∀ (done rest : List Char) (a : Alphabet), done ++ rest = cs → base.Folds a done →
      base.Folds (a.registerAll rest true) (done ++ rest) from this [] cs base rfl (.refl h)
  intro done rest
  induction rest generalizing done with
  | nil =>
      intro a _ folds
      rw [List.append_nil]
      exact folds
  | cons c rest ih =>
      intro a whole folds
      have split : (done ++ [c]) ++ rest = cs := by simpa using whole
      have listed : ∀ d ∈ done ++ [c], d ∈ cs := fun d mem => split ▸ List.mem_append_left rest mem
      have next : base.Folds (a.register c true) (done ++ [c]) := by
        by_cases mem : c ∈ done
        · exact folds.register_of_mem mem
        · exact folds.register_of_not_mem (fun d held => lower d (listed d held))
            (free c (listed c (by simp))) mem
      have later := ih (done ++ [c]) (a.register c true) split next
      rw [List.append_assoc] at later
      exact later

/-- Where no variant of the characters has a column yet, a variant is scanned like the first of them
that has it. -/
theorem symbolOf_eq (h : base.Folds a cs) {c d : Char} (first : variantOf? cs d = some c) :
    a.symbolOf (some d) = a.symbolOf (some c) := by
  rw [symbolOf, symbolOf, h.shares first]

/-- Different characters that were registered are told apart. -/
theorem eq_of_symbolOf_eq (h : base.Folds a cs) {c d : Char} (hc : c ∈ cs) (hd : d ∈ cs)
    (same : a.symbolOf (some c) = a.symbolOf (some d)) : c = d := by
  obtain ⟨s, found, -⟩ := h.owns hc
  obtain ⟨s', found', -⟩ := h.owns hd
  rw [symbolOf_of_getElem? found, symbolOf_of_getElem? found'] at same
  exact h.apart hc hd (by rw [found, found', same])

end Folds

/-- A character that is not declared as a separator has no column among the separators'. -/
theorem getElem?_foldl_registerSeparator {separators : List Char} {d : Char}
    (other : d ∉ separators) :
    (separators.foldl registerSeparator empty).symbols[d]? = none := by
  suffices ∀ a : Alphabet, a.symbols[d]? = none →
      (separators.foldl registerSeparator a).symbols[d]? = none from this empty (by simp [empty])
  induction separators with
  | nil => exact fun _ none => none
  | cons c separators ih =>
      intro a none
      have apart : d ≠ c := fun same => other (same ▸ List.mem_cons_self)
      apply ih fun mem => other (List.mem_cons_of_mem c mem)
      rw [registerSeparator]
      split
      · exact none
      · exact (Folds.getElem?_insert _ _ _ _).trans (by rw [if_neg apart, none])

end Alphabet

/-! ## The characters of the rules -/

theorem RuleTrie.Formed.mem_chars_iff {t : RuleTrie} (h : t.Formed) {c : Char} :
    c ∈ t.chars ↔ ∃ path, t.contains (path ++ [c]) = true := by
  constructor
  · intro mem
    obtain ⟨node, held, rfl⟩ := List.mem_map.mp mem
    have nonempty := h.path_ne_nil node held
    refine ⟨node.path.dropLast, RuleTrie.contains_iff.mpr ⟨node, held, ?_⟩⟩
    rw [TrieNode.char, List.getLastD_eq_getLast?, List.getLast?_eq_some_getLast nonempty,
      Option.getD_some, List.dropLast_append_getLast nonempty]
  · rintro ⟨path, held⟩
    exact RuleTrie.mem_chars_of_contains held

/-- A trie takes its characters from its texts. -/
theorem RuleTrie.Formed.mem_chars_enter {t : RuleTrie} (h : t.Formed) {call : TrieCall} {c : Char}
    (mem : c ∈ (t.enter call).chars) : c ∈ t.chars ∨ c ∈ call.text := by
  obtain ⟨path, held⟩ := (h.enter call).mem_chars_iff.mp mem
  obtain old | ⟨-, inText⟩ := (RuleTrie.contains_enter call _).mp held
  · exact .inl (RuleTrie.mem_chars_of_contains old)
  · exact .inr (inText.subset (by simp))

/-- The texts of a rule. -/
def Rule.texts : Rule → List String
  | .exact _ text => [text]
  | .comment opening closing => [opening, closing]
  | .literal border escape => [border, escape]

namespace RuleSet

variable {r : RuleSet} {f : RuleForest} {rule : Rule} {c : Char}

theorem mem_commentTrie_chars {closing : List Char} (mem : c ∈ (commentTrie closing).chars) :
    c ∈ closing := by
  rw [commentTrie_eq] at mem
  obtain none | text := RuleTrie.Formed.empty.mem_chars_enter mem
  · cases none
  · exact text

theorem mem_literalTrie_chars {border escape : List Char}
    (mem : c ∈ (literalTrie border escape).chars) : c ∈ border ∨ c ∈ escape := by
  have closing : ∀ d, d ∈ (RuleTrie.empty.enter ⟨border, .close .literal, false⟩).chars →
      d ∈ border := by
    intro d held
    obtain none | text := RuleTrie.Formed.empty.mem_chars_enter held
    · cases none
    · exact text
  rw [literalTrie_eq] at mem
  split at mem
  · exact .inl (closing c mem)
  · obtain old | new := (RuleTrie.Formed.empty.enter _).mem_chars_enter mem
    · exact .inl (closing c old)
    · exact (List.mem_append.mp new).symm

/-- A rule brings the characters of its texts and no others. -/
theorem mem_chars_plant (h : f.Formed) (mem : c ∈ (r.plant f rule).chars) :
    c ∈ f.chars ∨ ∃ text ∈ rule.texts, c ∈ r.normal text := by
  obtain ⟨accept, opening, -⟩ := r.exists_opening_plant f rule
  have opens : c ∈ (r.plant f rule).opening.chars →
      c ∈ f.chars ∨ ∃ text ∈ rule.texts, c ∈ r.normal text := by
    intro held
    rw [opening] at held
    obtain old | new := h.opening.mem_chars_enter held
    · exact .inl (List.mem_append_left _ (List.mem_append_left _ old))
    · exact .inr ⟨rule.openText, by cases rule <;> simp [Rule.texts, Rule.openText], new⟩
  have comments : c ∈ (r.plant f rule).comments.flatMap RuleTrie.chars →
      c ∈ f.chars ∨ ∃ text ∈ rule.texts, c ∈ r.normal text := by
    intro held
    have old : c ∈ f.comments.flatMap RuleTrie.chars → c ∈ f.chars := fun mem =>
      List.mem_append_left _ (List.mem_append_right _ mem)
    cases rule with
    | exact kind text | literal border escape => exact .inl (old held)
    | comment begins closing =>
        rw [show (r.plant f (.comment begins closing)).comments =
          f.comments ++ [commentTrie (r.normal closing)] from rfl, List.flatMap_append] at held
        obtain held | new := List.mem_append.mp held
        · exact .inl (old held)
        · rw [List.flatMap_singleton] at new
          exact .inr ⟨closing, by simp [Rule.texts], mem_commentTrie_chars new⟩
  have literals : c ∈ (r.plant f rule).literals.flatMap RuleTrie.chars →
      c ∈ f.chars ∨ ∃ text ∈ rule.texts, c ∈ r.normal text := by
    intro held
    cases rule with
    | exact kind text | comment begins closing => exact .inl (List.mem_append_right _ held)
    | literal border escape =>
        rw [show (r.plant f (.literal border escape)).literals =
          f.literals ++ [literalTrie (r.normal border) (r.normal escape)] from rfl,
          List.flatMap_append] at held
        obtain held | new := List.mem_append.mp held
        · exact .inl (List.mem_append_right _ held)
        · rw [List.flatMap_singleton] at new
          obtain text | text := mem_literalTrie_chars new
          · exact .inr ⟨border, by simp [Rule.texts], text⟩
          · exact .inr ⟨escape, by simp [Rule.texts], text⟩
  obtain front | held := List.mem_append.mp mem
  · exact (List.mem_append.mp front).elim opens comments
  · exact literals held

/-- Every character of the tries is a character of some rule's text. -/
theorem exists_rule_of_mem_chars (mem : c ∈ r.forest.chars) :
    ∃ rule ∈ r.rules, ∃ text ∈ rule.texts, c ∈ r.normal text := by
  suffices ∀ (rules : List Rule) (f : RuleForest), f.Formed → c ∈ (rules.foldl r.plant f).chars →
      c ∈ f.chars ∨ ∃ rule ∈ rules, ∃ text ∈ rule.texts, c ∈ r.normal text by
    obtain none | found := this r.rules .empty (Planted.empty r).toFormed mem
    · cases none
    · exact found
  intro rules
  induction rules with
  | nil => exact fun f _ mem => .inl mem
  | cons rule rules ih =>
      intro f formed mem
      obtain here | ⟨other, later, found⟩ := ih (r.plant f rule) (plant_formed formed rule) mem
      · obtain old | found := mem_chars_plant formed here
        · exact .inl old
        · exact .inr ⟨rule, List.mem_cons_self, found⟩
      · exact .inr ⟨other, List.mem_cons_of_mem rule later, found⟩

/-- Where case is ignored, rule texts are in lower case. -/
theorem toLower_of_mem_normal (ignores : r.ignoreCase = true) {text : String}
    (mem : c ∈ r.normal text) : Unicode.toLower c = c := by
  rw [normal, if_pos ignores, Text.toList_fold] at mem
  obtain ⟨d, -, rfl⟩ := List.mem_map.mp mem
  exact Unicode.toLower_toLower d

/-- No declared separator is a case variant of a character of a rule text. -/
def SeparatorsApart (r : RuleSet) : Prop :=
  ∀ rule ∈ r.rules, ∀ text ∈ rule.texts, ∀ c ∈ r.normal text, ∀ d ∈ Text.caseVariants c,
    d ∉ r.separators

/-- The columns of a rule set where case is ignored. -/
theorem alphabet_folds (ignores : r.ignoreCase = true) (apart : r.SeparatorsApart) :
    (r.separators.foldl Alphabet.registerSeparator .empty).Folds r.alphabet r.forest.chars := by
  rw [alphabet, ignores]
  refine .registerAll (Alphabet.InRange.empty.foldl_registerSeparator r.separators) _ ?_ ?_
  · intro c mem
    obtain ⟨rule, -, text, -, held⟩ := exists_rule_of_mem_chars mem
    exact toLower_of_mem_normal ignores held
  · intro c mem d variant
    obtain ⟨rule, listed, text, stated, held⟩ := exists_rule_of_mem_chars mem
    exact Alphabet.getElem?_foldl_registerSeparator (apart rule listed text stated c held d variant)

end RuleSet

/-! ## Scanning -/

namespace Blueprint

variable {b : Blueprint}

/-- The characters of the opening trie are told apart. -/
def Distinct (b : Blueprint) : Prop :=
  ∀ {c d : Char}, c ∈ b.forest.opening.chars → d ∈ b.forest.opening.chars →
    b.alphabet.symbolOf (some c) = b.alphabet.symbolOf (some d) → c = d

/-- A character that is scanned like one of the trie leads to its child. -/
theorem Distinct.target_withEdges (h : b.Distinct) (row : Row) (path : List Char) {c d : Char}
    (held : b.forest.opening.contains (path ++ [c]) = true)
    (same : b.alphabet.symbolOf (some d) = b.alphabet.symbolOf (some c)) :
    (row.withEdges (b.edges b.forest.opening path .opening)).target
      (b.alphabet.symbolOf (some d)) = .opening (path ++ [c]) := by
  rw [same]
  apply Row.target_withEdges_of_mem (mem_edges.mpr ⟨c, held, rfl⟩)
  intro other mem
  obtain ⟨e, held', pair⟩ := mem_edges.mp mem
  obtain ⟨column, rfl⟩ := Prod.mk.inj pair
  rw [h (RuleTrie.mem_chars_of_contains held') (RuleTrie.mem_chars_of_contains held) column.symm]

theorem Distinct.onward_startToken (h : b.Distinct) {c d : Char}
    (held : b.forest.opening.contains [c] = true)
    (same : b.alphabet.symbolOf (some d) = b.alphabet.symbolOf (some c)) :
    b.onward .startToken (some d) = .opening [c] :=
  h.target_withEdges { b.dispatchRow with edges := [] } [] held same

theorem Distinct.onward_opening (h : b.Distinct) {path : List Char} {c d : Char}
    (held : b.forest.opening.contains (path ++ [c]) = true)
    (same : b.alphabet.symbolOf (some d) = b.alphabet.symbolOf (some c)) :
    b.onward (.opening path) (some d) = .opening (path ++ [c]) :=
  h.target_withEdges _ path held same

/-- The same columns, character by character. -/
def ScannedAs (b : Blueprint) (text key : List Char) : Prop :=
  List.Forall₂ (fun d c => b.alphabet.symbolOf (some d) = b.alphabet.symbolOf (some c)) text key

/-- A text that is scanned like the rest of an opening text is gathered there. -/
theorem Distinct.munch_opening (h : b.Distinct) {text key : List Char}
    (scanned : b.ScannedAs text key) {path : List Char}
    (held : ∀ p, p ≠ [] → p <+: key → b.forest.opening.contains (path ++ p) = true) :
    b.munch (.opening path) text = ⟨text, .opening (path ++ key), []⟩ := by
  induction scanned generalizing path with
  | nil => rw [munch, List.append_nil]
  | @cons d c text key same rest ih =>
      have child := held [c] (List.cons_ne_nil c []) ⟨key, rfl⟩
      have deeper : ∀ p, p ≠ [] → p <+: key →
          b.forest.opening.contains (path ++ [c] ++ p) = true := by
        intro p _ inKey
        rw [List.append_assoc]
        exact held (c :: p) (List.cons_ne_nil c p) (List.cons_prefix_cons.mpr ⟨rfl, inKey⟩)
      have reads : (Place.opening (path ++ [c])).consumes = true := rfl
      rw [munch_cons, h.onward_opening child same, if_pos reads, ih deeper, List.append_assoc]
      rfl

/-- A text that is scanned like a complete opening text is one segment. -/
theorem Distinct.segments_eq (h : b.Distinct) {text key : List Char}
    (scanned : b.ScannedAs text key) (nonempty : key ≠ [])
    (held : ∀ p, p ≠ [] → p <+: key → b.forest.opening.contains p = true) :
    b.segments text = [⟨b.forest.kindAt (.opening key), text, b.stateAt (.opening key)⟩] := by
  cases scanned with
  | nil => exact absurd rfl nonempty
  | @cons d c text key same rest =>
      have child := held [c] (List.cons_ne_nil c []) ⟨key, rfl⟩
      have deeper : ∀ p, p ≠ [] → p <+: key → b.forest.opening.contains ([c] ++ p) = true :=
        fun p _ inKey => held (c :: p) (List.cons_ne_nil c p)
          (List.cons_prefix_cons.mpr ⟨rfl, inKey⟩)
      have first : b.first d text = ⟨d :: text, .opening (c :: key), []⟩ := by
        rw [first, h.onward_startToken child same, h.munch_opening rest deeper]
        rfl
      rw [segments_cons, first, segments_nil]
      rfl

end Blueprint

namespace Cursor

variable {σ : Type} [CharSource σ] {t : Tables}

/-- A token that is no separator is given out whether or not separators are left out. -/
theorem run_of_ne_separator {fuel : Nat} {c : Cursor σ}
    (kept : ∀ token c', c.run t false fuel = (.token token, c') → token.kind ≠ .separator) :
    c.run t true fuel = c.run t false fuel := by
  induction fuel generalizing c with
  | zero => rfl
  | succ fuel ih =>
      rw [run] at kept
      rw [run, run]
      cases tick : c.tick t with
      | moved c' =>
          rw [tick] at kept
          exact ih kept
      | gave token c' =>
          rw [tick] at kept
          have other : token.kind ≠ .separator := kept token c' rfl
          simp [other]
      | ended c' | failed e c' => rfl

/-- Where no token is a separator, none is left out. -/
theorem tokens_of_ne_separator {count : Nat} {c : Cursor σ}
    (kept : ∀ token ∈ c.tokens t false count, token.kind ≠ .separator) :
    c.tokens t true count = c.tokens t false count := by
  induction count generalizing c with
  | zero => rfl
  | succ count ih =>
      have first : c.next t true = c.next t false := by
        apply run_of_ne_separator
        intro token c' given
        apply kept
        rw [tokens, show c.next t false = (.token token, c') from given]
        exact List.mem_cons_self
      rw [tokens, tokens, first]
      cases given : c.next t false with
      | mk outcome c' =>
          cases outcome with
          | token token =>
              rw [tokens, given] at kept
              have others := ih fun token mem => kept token (List.mem_cons_of_mem _ mem)
              exact congrArg _ others
          | finished | failed e | stalled => rfl

end Cursor

theorem Tables.tokenize_of_ne_separator {t : Tables} {text : String}
    (kept : ∀ token ∈ t.tokenize text false, token.kind ≠ .separator) (skipSeparators : Bool) :
    t.tokenize text skipSeparators = t.tokenize text false := by
  cases skipSeparators with
  | false => rfl
  | true =>
      rw [tokenize, tokenize] at *
      split
      · rfl
      · next c begins =>
          rw [begins] at kept
          exact Cursor.tokens_of_ne_separator kept

/-- Where case is ignored and no separator is a variant of a rule's character, a text is one token
of an exact rule if its characters belong to those of the rule's text: each is the lower-case form,
or the upper-case form if the rules have no character before that shares it. -/
theorem tokenize_case_variants (ds : List Declaration) :
    let r := RuleSet.ofDeclarations ds
    let t := r.compile
    r.ignoreCase = true → r.SeparatorsApart →
      ∀ (key : String) (state : StateId), t.lexemeState? key = some state →
      ∀ text : String,
        List.Forall₂ (fun d c => Text.variantOf? r.forest.chars d = some c) text.toList
          key.toList →
        ∀ skipSeparators : Bool,
          t.tokenize text skipSeparators = [⟨t.kindOf state, text, .start, state⟩] := by
  intro r t ignores apart key state indexed text spelt skipSeparators
  have lexing : r.blueprint.Lexing := .of_declarations ds
  have folds := r.alphabet_folds ignores apart
  obtain ⟨⟨accept, done, ends⟩, rfl⟩ :=
    (Blueprint.lexemeState?_eq_some_iff lexing.forest.opening).mp indexed
  have held : r.forest.opening.contains key.toList = true := Bool.of_not_eq_false fun missing =>
    nomatch (RuleTrie.accept?_eq_none missing).symm.trans done
  obtain ⟨nonempty, rule, mem, inRule⟩ := (r.planted.contains_iff key.toList).mp held
  have walk : ∀ p, p ≠ [] → p <+: key.toList → r.forest.opening.contains p = true :=
    fun p more inKey => (r.planted.contains_iff p).mpr ⟨more, rule, mem, inKey.trans inRule⟩
  have known : ∀ {c}, c ∈ r.forest.opening.chars → c ∈ r.forest.chars := fun mem =>
    List.mem_append_left _ (List.mem_append_left _ mem)
  have distinct : r.blueprint.Distinct := fun hc hd => folds.eq_of_symbolOf_eq (known hc) (known hd)
  have scanned : r.blueprint.ScannedAs text.toList key.toList := spelt.imp fun _ _ first =>
    folds.symbolOf_eq first
  have kind : r.blueprint.forest.kindAt (.opening key.toList) = accept.kind :=
    RuleForest.kindAt_opening done
  have closed : accept.kind.isExact = true := lexing.ends_exact done ends
  have noWord : accept.kind ≠ .word := fun word => nomatch word ▸ closed
  have noSeparator : accept.kind ≠ .separator := fun separator => nomatch separator ▸ closed
  have state : r.blueprint.stateAt (.opening key.toList) =
      r.blueprint.number (.opening key.toList) := if_neg (kind ▸ noWord)
  have gathers : t.kindOf (r.blueprint.number (.opening key.toList)) = accept.kind :=
    (Blueprint.kindOf_number (RuleForest.mem_places.mpr held)).trans kind
  have whole : t.tokenize text false =
      [⟨accept.kind, text, .start, r.blueprint.number (.opening key.toList)⟩] := by
    rw [show t.tokenize text false = _ from lexing.tokenize_eq text,
      distinct.segments_eq scanned nonempty walk, kind, state]
    show [Token.mk _ (String.ofList text.toList) _ _] = _
    rw [String.ofList_toList]
  rw [Tables.tokenize_of_ne_separator _ skipSeparators, whole, gathers]
  rw [whole]
  intro token mem
  rw [List.mem_singleton.mp mem]
  exact noSeparator

/-- Of two keywords that differ only in characters with the same upper case, the text in upper case
is the one whose character came first. -/
theorem tokenize_long_s :
    let r := RuleSet.ofDeclarations [.keywords ["ſo", "So"], .ignoreCase true]
    r.ignoreCase = true ∧ r.SeparatorsApart ∧ r.compile.lexemeState? "ſo" = some 7 ∧
      r.compile.tokenize "SO" true = [⟨r.compile.kindOf 7, "SO", .start, 7⟩] := by
  intro r
  have apart : r.SeparatorsApart := fun _ _ _ _ _ _ _ _ => List.not_mem_nil
  have indexed : r.compile.lexemeState? "ſo" = some 7 := by decide +kernel
  have spelt : List.Forall₂ (fun d c => Text.variantOf? r.forest.chars d = some c) "SO".toList
      "ſo".toList := .cons (by decide +kernel) (.cons (by decide +kernel) .nil)
  exact ⟨rfl, apart, indexed, tokenize_case_variants _ rfl apart "ſo" 7 indexed "SO" spelt true⟩

/-- The other keyword is not found in upper case, although its characters have no other upper-case
forms. -/
theorem tokenize_shadowed_variant :
    let r := RuleSet.ofDeclarations [.keywords ["ſ", "s"], .ignoreCase true]
    r.ignoreCase = true ∧ r.SeparatorsApart ∧ r.compile.lexemeState? "s" = some 7 ∧
      List.Forall₂ (fun d c => d ∈ Text.caseVariants c) "S".toList "s".toList ∧
      r.compile.tokenize "S" false ≠ [⟨r.compile.kindOf 7, "S", .start, 7⟩] := by
  intro r
  have apart : r.SeparatorsApart := fun _ _ _ _ _ _ _ _ => List.not_mem_nil
  have variant : List.Forall₂ (fun d c => d ∈ Text.caseVariants c) "S".toList "s".toList :=
    .cons (by decide +kernel) .nil
  exact ⟨rfl, apart, by decide +kernel, variant, by decide +kernel⟩

end TableLexer
