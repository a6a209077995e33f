import Mathlib.Data.List.Find
import TableLexer.Proofs.Answers
import TableLexer.Proofs.Refinement

/-!
# Rules that are reordered or added

Two rule sets number their characters, tries and states in different ways as soon as a rule is moved
or added. The lexer on rule texts knows none of these numbers: it asks a rule set which texts begin
an opening text, which rule comes last with an opening text and which characters separate words,
and it asks about no texts but those that begin with a character of the input. So rule sets that
give the same answers there scan the input alike, and the compiled tables do as well.
-/

namespace TableLexer

section Beginnings

variable {texts texts' : List (List Char)} {c : Char}

/-- The longest beginning is found among the texts that begin with the same character. -/
theorem longestBeginning_congr
    (same : ∀ path, begins texts (c :: path) = begins texts' (c :: path)) (rest : List Char) :
    longestBeginning texts (c :: rest) = longestBeginning texts' (c :: rest) := by
  have agree : ∀ n, n ≠ 0 →
      begins texts ((c :: rest).take n) = begins texts' ((c :: rest).take n) := by
    intro n nonzero
    obtain ⟨n, rfl⟩ := Nat.exists_eq_succ_of_ne_zero nonzero
    exact same _
  have longest : Nat.findGreatest (fun n => begins texts ((c :: rest).take n) = true)
      (c :: rest).length =
      Nat.findGreatest (fun n => begins texts' ((c :: rest).take n) = true)
        (c :: rest).length := by
    obtain ⟨le, found, further⟩ := Nat.findGreatest_eq_iff.mp (Eq.refl
      (Nat.findGreatest (fun n => begins texts' ((c :: rest).take n) = true) (c :: rest).length))
    refine Nat.findGreatest_eq_iff.mpr ⟨le, fun nonzero => ?_, fun n longer within => ?_⟩
    · exact (agree _ nonzero).trans (found nonzero)
    · intro begun
      apply further longer within
      exact (agree n (Nat.ne_zero_of_lt longer)).symm.trans begun
  rw [longestBeginning, longest, longestBeginning]

theorem longestBeginning_prefix (texts : List (List Char)) (input : List Char) :
    longestBeginning texts input <+: input := List.take_prefix _ input

end Beginnings

/-- What is passed of a list depends on its members only. -/
theorem span_congr {α : Type} {p q : α → Bool} {l : List α} (same : ∀ a ∈ l, p a = q a) :
    l.takeWhile p = l.takeWhile q ∧ l.dropWhile p = l.dropWhile q := by
  induction l with
  | nil => exact ⟨rfl, rfl⟩
  | cons a l ih =>
      obtain ⟨taken, dropped⟩ := ih fun b mem => same b (List.mem_cons_of_mem a mem)
      have first := same a List.mem_cons_self
      constructor
      · simp only [List.takeWhile_cons, first, taken]
      · simp only [List.dropWhile_cons, first, dropped]

namespace RuleSet

/-- Two rule sets say the same about the opening texts that begin with one of some characters, and
about these characters as separators. -/
structure AgreesOn (r r' : RuleSet) (chars : List Char) : Prop where
  begins_eq : ∀ c ∈ chars, ∀ path,
    begins r.openTexts (c :: path) = begins r'.openTexts (c :: path)
  lastRule?_eq : ∀ c ∈ chars, ∀ path, r.lastRule? (c :: path) = r'.lastRule? (c :: path)
  separates_eq : ∀ c ∈ chars, r.separates c = r'.separates c

namespace AgreesOn

variable {r r' : RuleSet} {chars fewer rest : List Char} {c : Char}

theorem mono (h : r.AgreesOn r' chars) (within : fewer ⊆ chars) : r.AgreesOn r' fewer where
  begins_eq c mem := h.begins_eq c (within mem)
  lastRule?_eq c mem := h.lastRule?_eq c (within mem)
  separates_eq c mem := h.separates_eq c (within mem)

theorem continuesWord_eq (h : r.AgreesOn r' chars) (mem : c ∈ chars) :
    r.continuesWord c = r'.continuesWord c := by
  rw [continuesWord, continuesWord, h.separates_eq c mem, h.begins_eq c mem []]

/-- The same is cut off behind the same beginning of an opening text. -/
theorem cutOpening_eq (h : r.AgreesOn r' chars) (mem : c ∈ chars) (path : List Char)
    (within : rest ⊆ chars) : r.cutOpening (c :: path) rest = r'.cutOpening (c :: path) rest := by
  obtain ⟨taken, dropped⟩ := span_congr fun d (held : d ∈ rest) =>
    h.continuesWord_eq (within held)
  simp only [cutOpening, h.lastRule?_eq c mem path, taken, dropped]

theorem cut_eq (h : r.AgreesOn r' (c :: rest)) : r.cut c rest = r'.cut c rest := by
  have mem : c ∈ c :: rest := List.mem_cons_self
  have longest := longestBeginning_congr (h.begins_eq c mem) rest
  have inside : rest ⊆ c :: rest := List.subset_cons_self c rest
  simp only [cut, longest]
  split
  · next d path found =>
      have part := longestBeginning_prefix r'.openTexts (c :: rest)
      rw [found] at part
      obtain ⟨rfl, -⟩ := List.cons_prefix_cons.mp part
      exact h.cutOpening_eq mem path (List.Subset.trans (List.drop_subset _ rest) inside)
  · obtain ⟨run, behind⟩ := span_congr fun d (held : d ∈ rest) =>
      h.separates_eq d (inside held)
    obtain ⟨word, behind'⟩ := span_congr fun d (held : d ∈ rest) =>
      h.continuesWord_eq (inside held)
    rw [h.separates_eq c mem, run, behind, word, behind']

/-- A text is cut alike by rule sets that agree on its characters. The induction is on its
segments. -/
theorem cutAll_eq {text : List Char} (h : r.AgreesOn r' text) : r.cutAll text = r'.cutAll text := by
  induction text using cutAll.induct r with
  | case1 => rw [cutAll, cutAll]
  | case2 c rest ih =>
      have left : (r.cut c rest).rest ⊆ c :: rest :=
        List.Subset.trans (r.cut_rest_suffix c rest).subset (List.subset_cons_self c rest)
      rw [cutAll, cutAll, ih (h.mono left), h.cut_eq]

end AgreesOn

end RuleSet

theorem Token.map_outline_filter (skip : Bool) (tokens : List Token) :
    (tokens.filter (Token.shown skip)).map Token.outline =
      (tokens.map Token.outline).filter fun (_, p) => !(skip && p.kind = .separator) := by
  rw [List.filter_map]
  rfl

namespace RuleSet

variable {ds ds' : List Declaration}

/-- Where case counts, rule sets that agree on the characters of a text scan it alike, with
separators or without them. -/
theorem AgreesOn.map_outline_tokenize_eq {text : String}
    (h : (ofDeclarations ds).AgreesOn (ofDeclarations ds') text.toList)
    (sensitive : (ofDeclarations ds).ignoreCase = false)
    (sensitive' : (ofDeclarations ds').ignoreCase = false) (skip : Bool) :
    ((ofDeclarations ds).compile.tokenize text skip).map Token.outline =
      ((ofDeclarations ds').compile.tokenize text skip).map Token.outline := by
  have sound : ∀ r : RuleSet, r.compile.Sound := fun r => r.blueprint_formed.sound
  have outlines : ((ofDeclarations ds).compile.tokenize text false).map Token.outline =
      ((ofDeclarations ds').compile.tokenize text false).map Token.outline := by
    rw [map_outline_tokenize sensitive, map_outline_tokenize sensitive', lex, lex, h.cutAll_eq]
  rw [(sound _).tokenize_skip, (sound (ofDeclarations ds')).tokenize_skip,
    Token.map_outline_filter, Token.map_outline_filter, outlines]

section Reordered

variable {r r' : RuleSet}

/-- Where no two rules have the same opening text, the order of the rules does not decide which one
comes last with a text. -/
theorem lastRule?_of_perm (rules : r.rules.Perm r'.rules)
    (distinct : (r.rules.map Rule.openText).Nodup) : r.lastRule? = r'.lastRule? := by
  funext path
  have backwards : r.rules.reverse.Perm r'.rules.reverse :=
    (List.reverse_perm _).trans (rules.trans (List.reverse_perm _).symm)
  refine List.find?_eq_find?_of_perm backwards ?_
  rintro rule ⟨mem, here⟩ other ⟨mem', here'⟩
  have same : rule.openText = other.openText := by
    apply String.toList_injective
    rw [beq_iff_eq.mp here, beq_iff_eq.mp here']
  exact List.inj_on_of_nodup_map distinct (List.mem_reverse.mp mem) (List.mem_reverse.mp mem') same

theorem agreesOn_of_perm (rules : r.rules.Perm r'.rules)
    (distinct : (r.rules.map Rule.openText).Nodup)
    (separators : ∀ c, c ∈ r.separators ↔ c ∈ r'.separators) (chars : List Char) :
    r.AgreesOn r' chars where
  begins_eq _ _ _ := (rules.map _).any_eq
  lastRule?_eq c _ path := congrFun (lastRule?_of_perm rules distinct) (c :: path)
  separates_eq c _ := by
    rw [Bool.eq_iff_iff]
    simp [separates, separators]

end Reordered

end RuleSet

/-- The order of rules and of separators does not matter where no two rules have the same opening
text. Every text is scanned to tokens of the same kinds with the same texts in the same places, and
the exact rules have the same texts and kinds. The states may have other numbers. -/
theorem tokenize_order_independent {ds ds' : List Declaration}
    (sensitive : (RuleSet.ofDeclarations ds).ignoreCase = false)
    (sensitive' : (RuleSet.ofDeclarations ds').ignoreCase = false)
    (rules : (RuleSet.ofDeclarations ds).rules.Perm (RuleSet.ofDeclarations ds').rules)
    (distinct : ((RuleSet.ofDeclarations ds).rules.map Rule.openText).Nodup)
    (separators : ∀ c, c ∈ (RuleSet.ofDeclarations ds).separators ↔
      c ∈ (RuleSet.ofDeclarations ds').separators) :
    let t := (RuleSet.ofDeclarations ds).compile
    let t' := (RuleSet.ofDeclarations ds').compile
    (∀ text skip, (t.tokenize text skip).map Token.outline =
      (t'.tokenize text skip).map Token.outline) ∧
      ∀ text, (t.lexemeState? text).map t.kindOf = (t'.lexemeState? text).map t'.kindOf := by
  intro t t'
  constructor
  · intro text skip
    have agree := RuleSet.agreesOn_of_perm rules distinct separators text.toList
    exact agree.map_outline_tokenize_eq sensitive sensitive' skip
  · intro text
    by_cases empty : text = ""
    · subst empty
      rw [RuleSet.lexemeState?_empty, RuleSet.lexemeState?_empty, Option.map_none, Option.map_none]
    · rw [RuleSet.map_kindOf_lexemeState? _ empty, RuleSet.map_kindOf_lexemeState? _ empty,
        RuleSet.owner?_of_sensitive sensitive, RuleSet.owner?_of_sensitive sensitive',
        RuleSet.lastRule?_of_perm rules distinct]

/-- The same rules the other way round, with separators that a rule mentions. -/
theorem reversed_rules_scan_alike :
    let ds : List Declaration := [.operators ["<", "<="], .comment "/*" "*/", .separators " *"]
    let ds' : List Declaration := [.separators "* ", .comment "/*" "*/", .operators ["<=", "<"]]
    let t := (RuleSet.ofDeclarations ds).compile
    let t' := (RuleSet.ofDeclarations ds').compile
    (RuleSet.ofDeclarations ds).ignoreCase = false ∧
      (RuleSet.ofDeclarations ds').ignoreCase = false ∧
      (RuleSet.ofDeclarations ds).rules.Perm (RuleSet.ofDeclarations ds').rules ∧
      ((RuleSet.ofDeclarations ds).rules.map Rule.openText).Nodup ∧
      (∀ c, c ∈ (RuleSet.ofDeclarations ds).separators ↔
        c ∈ (RuleSet.ofDeclarations ds').separators) ∧
      (t.tokenize "a<=b * /*<*/" true).map Token.outline =
        (t'.tokenize "a<=b * /*<*/" true).map Token.outline ∧
      (t.lexemeState? "<").map t.kindOf = (t'.lexemeState? "<").map t'.kindOf := by
  intro ds ds' t t'
  have rules : (RuleSet.ofDeclarations ds).rules.Perm (RuleSet.ofDeclarations ds').rules := by
    decide
  have distinct : ((RuleSet.ofDeclarations ds).rules.map Rule.openText).Nodup := by decide
  have separators : ∀ c, c ∈ (RuleSet.ofDeclarations ds).separators ↔
      c ∈ (RuleSet.ofDeclarations ds').separators := fun c =>
    (List.Perm.swap '*' ' ' []).mem_iff
  obtain ⟨scans, index⟩ := tokenize_order_independent rfl rfl rules distinct separators
  exact ⟨rfl, rfl, rules, distinct, separators, scans _ true, index "<"⟩

namespace RuleSet

/-- A declaration of rules changes nothing but the list of rules. -/
theorem declare_eq_of_rules {d : Declaration} (declares : d.rules ≠ []) (r : RuleSet) :
    r.declare d = { r with rules := r.rules ++ d.rules } := by
  cases d with
  | keywords _ | operators _ | comment _ _ | lineComment _ | literal _ _ => rfl
  | separators _ | ignoreCase _ | skipSeparators _ => exact absurd rfl declares

/-- What is declared later does not depend on the rules before it. -/
theorem foldl_declare_with_rules (r : RuleSet) (rules : List Rule) (ds : List Declaration) :
    ds.foldl declare { r with rules := rules } =
      { ds.foldl declare r with rules := rules ++ ds.flatMap Declaration.rules } := by
  induction ds generalizing r rules with
  | nil => simp
  | cons d ds ih =>
      have first : ({ r with rules := rules } : RuleSet).declare d =
          { r.declare d with rules := rules ++ d.rules } := by
        cases d <;> rfl
      rw [List.foldl_cons, List.foldl_cons, first, ih, List.flatMap_cons, List.append_assoc]

theorem ofDeclarations_append (front back : List Declaration) : ofDeclarations (front ++ back) =
    { back.foldl declare (ofDeclarations front) with
      rules := (ofDeclarations front).rules ++ back.flatMap Declaration.rules } := by
  rw [ofDeclarations, List.foldl_append]
  exact foldl_declare_with_rules (ofDeclarations front) (ofDeclarations front).rules back

/-- More rules among those of a rule set, wherever they are declared. -/
theorem ofDeclarations_insert (front back : List Declaration) {d : Declaration}
    (declares : d.rules ≠ []) : ofDeclarations (front ++ d :: back) =
      { ofDeclarations (front ++ back) with
        rules := (ofDeclarations front).rules ++ d.rules ++ back.flatMap Declaration.rules } := by
  rw [ofDeclarations_append front back, ofDeclarations, List.foldl_append, List.foldl_cons,
    declare_eq_of_rules declares]
  exact foldl_declare_with_rules (ofDeclarations front) _ back

/-- Rules whose opening texts begin with none of some characters do not matter there. -/
theorem agreesOn_of_insert {r : RuleSet} {front more back : List Rule} {chars : List Char}
    (rules : r.rules = front ++ back)
    (apart : ∀ rule ∈ more, ∀ c ∈ rule.openText.toList.head?, c ∉ chars) :
    ({ r with rules := front ++ more ++ back } : RuleSet).AgreesOn r chars := by
  have other : ∀ c ∈ chars, ∀ rule ∈ more, ∀ rest, rule.openText.toList ≠ c :: rest := by
    intro c mem rule held rest begun
    apply apart rule held c _ mem
    rw [begun]
    rfl
  refine ⟨fun c mem path => ?_, fun c mem path => ?_, fun _ _ => rfl⟩
  · have none : (more.map fun rule => rule.openText.toList).any ((c :: path).isPrefixOf ·) =
        false := by
      rw [List.any_eq_false]
      rintro text held begun
      obtain ⟨rule, added, rfl⟩ := List.mem_map.mp held
      obtain ⟨rest, whole⟩ := List.isPrefixOf_iff_prefix.mp begun
      exact other c mem rule added _ whole.symm
    simp only [begins, openTexts, rules, List.map_append, List.any_append, none, Bool.or_false]
  · have none : more.reverse.find? (fun rule => rule.openText.toList == c :: path) = none := by
      rw [List.find?_eq_none]
      intro rule held here
      exact other c mem rule (List.mem_reverse.mp held) path (beq_iff_eq.mp here)
    simp only [lastRule?, rules, List.reverse_append, List.find?_append, none, Option.none_or]

end RuleSet

/-- Rules that begin with characters which a text does not have do not change how it is scanned,
wherever they are declared and whatever else they mention. -/
theorem tokenize_unrelated_rules {front back : List Declaration} {d : Declaration} {text : String}
    (sensitive : (RuleSet.ofDeclarations (front ++ back)).ignoreCase = false)
    (declares : d.rules ≠ [])
    (apart : ∀ rule ∈ d.rules, ∀ c ∈ rule.openText.toList.head?, c ∉ text.toList) (skip : Bool) :
    ((RuleSet.ofDeclarations (front ++ d :: back)).compile.tokenize text skip).map Token.outline =
      ((RuleSet.ofDeclarations (front ++ back)).compile.tokenize text skip).map Token.outline := by
  have inserted := RuleSet.ofDeclarations_insert front back declares
  have rules : (RuleSet.ofDeclarations (front ++ back)).rules =
      (RuleSet.ofDeclarations front).rules ++ back.flatMap Declaration.rules :=
    congrArg RuleSet.rules (RuleSet.ofDeclarations_append front back)
  have agree := RuleSet.agreesOn_of_insert rules apart
  rw [← inserted] at agree
  apply agree.map_outline_tokenize_eq _ sensitive skip
  rw [inserted]
  exact sensitive

/-- A comment that mentions a separator and the first character of an operator. -/
theorem added_comment_changes_nothing :
    let front : List Declaration := [.operators ["-"], .separators " *"]
    let d : Declaration := .comment "/*" "*-"
    (RuleSet.ofDeclarations (front ++ [])).ignoreCase = false ∧ d.rules ≠ [] ∧
      (∀ rule ∈ d.rules, ∀ c ∈ rule.openText.toList.head?, c ∉ "a *- b".toList) ∧
      ((RuleSet.ofDeclarations (front ++ [d])).compile.tokenize "a *- b" false).map
          Token.outline =
        ((RuleSet.ofDeclarations (front ++ [])).compile.tokenize "a *- b" false).map
          Token.outline := by
  intro front d
  have declares : d.rules ≠ [] := List.cons_ne_nil _ _
  have apart : ∀ rule ∈ d.rules, ∀ c ∈ rule.openText.toList.head?, c ∉ "a *- b".toList := by
    intro rule mem c first
    obtain rfl := List.mem_singleton.mp mem
    obtain rfl : '/' = c := Option.some.inj first
    decide
  exact ⟨rfl, declares, apart, tokenize_unrelated_rules rfl declares apart false⟩

end TableLexer
