import Mathlib.Data.List.Chain
import TableLexer.Proofs.Boundaries
import TableLexer.Proofs.Refinement

/-!
# Words and separators are not divided

Adjacent word text makes one token, because segments are joined. Separators make one token, because
a run of them is entered only where a token begins, on a separator, and is left only on what is not
one. Both hold whatever the case of the rules: which characters separate words is asked of the
alphabet, and an alphabet in which case does not count has more separators than were declared.
-/

namespace TableLexer

namespace Segment

variable {ι : Type} {ps : List (Segment ι)}

/-- Joined segments are not adjacent word text. -/
theorem isChain_join (ps : List (Segment ι)) :
    (join ps).IsChain fun p q => ¬ (p.kind = .word ∧ q.kind = .word) := by
  induction ps with
  | nil => exact .nil
  | cons p ps ih =>
      rw [join_cons]
      cases joined : join ps with
      | nil => exact .singleton p
      | cons q rest =>
          rw [joined] at ih
          rw [before_cons]
          split
          · next both =>
              apply ih.imp_head
              rintro r apart ⟨-, word⟩
              exact apart ⟨both.2, word⟩
          · next apart => exact .cons_cons apart ih

/-- What holds of each segment and the text behind it, and of all word text, holds of each token and
the text behind it. -/
theorem forall_suffix_join {P : Segment ι → List Char → Prop}
    (each : ∀ p after, p :: after <:+ ps → P p (after.flatMap text))
    (word : ∀ p behind, p.kind = .word → P p behind) :
    ∀ p after, p :: after <:+ join ps → P p (after.flatMap text) := by
  induction ps with
  | nil =>
      intro p after part
      cases List.suffix_nil.mp part
  | cons q ps ih =>
      have later := ih fun p after part => each p after (part.trans (List.suffix_cons q ps))
      have first := each q ps List.suffix_rfl
      rw [← flatMap_join] at first
      intro p after part
      rw [join_cons] at part
      obtain ⟨r, rest, joined, both⟩ | apart := q.before_cases (join ps)
      · rw [joined, before_cons, if_pos both] at part
        obtain same | part := List.suffix_cons_iff.mp part
        · obtain ⟨rfl, -⟩ := List.cons.inj same
          exact word _ _ both.1
        · exact later p after (joined ▸ part.trans (List.suffix_cons r rest))
      · have alone := apart (join ps).length
        rw [List.take_length] at alone
        rw [alone] at part
        obtain same | part := List.suffix_cons_iff.mp part
        · obtain ⟨rfl, rfl⟩ := List.cons.inj same
          exact first
        · exact later p after part

end Segment

namespace Blueprint

variable {b : Blueprint} {place : Place} {s : Symbol}

/-- A place inside a trie, which is where edges lead. -/
def InTrie (place : Place) : Prop :=
  (∃ path, place = .opening path) ∨ ∃ region path, place = .closing region path

theorem inTrie_of_mem_edges {t : RuleTrie} {path : List Char} {child : List Char → Place}
    (within : ∀ path, InTrie (child path)) {edge : Symbol × Place}
    (held : edge ∈ b.edges t path child) : InTrie edge.2 := by
  obtain ⟨c, -, rfl⟩ := mem_edges.mp held
  exact within _

theorem inTrie_of_mem_bodyRow {region : Region} {edge : Symbol × Place}
    (held : edge ∈ (b.bodyRow region).edges) : InTrie edge.2 :=
  inTrie_of_mem_edges (fun path => .inr ⟨region, path, rfl⟩) held

theorem inTrie_of_mem_openingRow {accept : Option Accept} {edge : Symbol × Place}
    (held : edge ∈ (b.openingRow accept).edges) : InTrie edge.2 := by
  cases accept with
  | none => cases held
  | some accept => cases accept with
    | exact kind | close kind => cases held
    | opens region => exact inTrie_of_mem_bodyRow held

/-- Edges lead into tries. -/
theorem inTrie_of_mem_row {edge : Symbol × Place} (held : edge ∈ (b.row place).edges) :
    InTrie edge.2 := by
  have opens : ∀ path, InTrie (.opening path) := fun path => .inl ⟨path, rfl⟩
  have closes : ∀ region path, InTrie (.closing region path) := fun region path =>
    .inr ⟨region, path, rfl⟩
  cases place with
  | finish | endToken | word | separatorRun => cases held
  | startToken | flush => exact inTrie_of_mem_edges opens held
  | body region => exact inTrie_of_mem_bodyRow held
  | opening path =>
      obtain start | further := List.mem_append.mp held
      · exact inTrie_of_mem_openingRow start
      · exact inTrie_of_mem_edges opens further
  | closing region path =>
      obtain start | further := List.mem_append.mp held
      · rw [closingRow] at start
        split at start
        · cases start
        · exact inTrie_of_mem_bodyRow start
      · exact inTrie_of_mem_edges (closes region) further

theorem isSeparator_of_dispatchRow (leads : b.dispatchRow.otherwise s = .separatorRun) :
    b.alphabet.isSeparator s = true := by
  simp only [dispatchRow] at leads
  split at leads
  · cases leads
  · split at leads
    · assumption
    · cases leads

theorem isSeparator_of_separatorRow (leads : b.separatorRow.otherwise s = .separatorRun) :
    b.alphabet.isSeparator s = true := by
  simp only [separatorRow] at leads
  split at leads
  · cases leads
  · split at leads
    · assumption
    · cases leads

theorem wordRow_ne_separatorRun (s : Symbol) : b.wordRow.otherwise s ≠ .separatorRun := by
  simp only [wordRow]
  split
  · exact Place.noConfusion
  · split <;> exact Place.noConfusion

theorem bodyRow_ne_separatorRun (region : Region) (s : Symbol) :
    (b.bodyRow region).otherwise s ≠ .separatorRun := by
  simp only [bodyRow]
  split <;> exact Place.noConfusion

theorem openingRow_ne_separatorRun (accept : Option Accept) (s : Symbol) :
    (b.openingRow accept).otherwise s ≠ .separatorRun := by
  cases accept with
  | none => exact wordRow_ne_separatorRun s
  | some accept => cases accept with
    | exact kind | close kind => exact Place.noConfusion
    | opens region => exact bodyRow_ne_separatorRun region s

/-- A run of separators is entered on a separator, from where a token begins or from itself. -/
theorem separates_of_onward {c : Char} (leads : b.onward place (some c) = .separatorRun) :
    (place = .startToken ∨ place = .flush ∨ place = .separatorRun) ∧ b.separates c = true := by
  obtain ⟨edge, held, -, same⟩ | ⟨-, same⟩ :=
    (b.row place).target_cases (b.alphabet.symbolOf (some c))
  · have run : edge.2 = .separatorRun := same.symm.trans leads
    obtain ⟨path, child⟩ | ⟨region, path, child⟩ := inTrie_of_mem_row held
    · cases run.symm.trans child
    · cases run.symm.trans child
  · have way := same.symm.trans leads
    cases place with
    | finish | endToken => cases way
    | startToken => exact ⟨.inl rfl, isSeparator_of_dispatchRow way⟩
    | flush => exact ⟨.inr (.inl rfl), isSeparator_of_dispatchRow way⟩
    | separatorRun => exact ⟨.inr (.inr rfl), isSeparator_of_separatorRow way⟩
    | word => exact absurd way (wordRow_ne_separatorRun _)
    | body region => exact absurd way (bodyRow_ne_separatorRun region _)
    | opening path => exact absurd way (openingRow_ne_separatorRun _ _)
    | closing region path =>
        rw [otherwise_row] at way
        simp only [closingRow] at way
        split at way
        · cases way
        · exact absurd way (bodyRow_ne_separatorRun region _)

/-- Reading on does not lead into a run of separators. -/
theorem munch_ne_separatorRun (reads : place.consumes = true) (apart : place ≠ .separatorRun)
    (input : List Char) : (b.munch place input).place ≠ .separatorRun := by
  induction input generalizing place with
  | nil => exact apart
  | cons c rest ih =>
      rw [munch_cons]
      split
      · next more =>
          apply ih more
          intro leads
          obtain ⟨rfl | rfl | rfl, -⟩ := separates_of_onward leads
          · cases reads
          · cases reads
          · exact apart rfl
      · exact apart

namespace Lexing

/-- Separators are gathered in runs of them only. -/
theorem eq_separatorRun (h : b.Lexing) (kind : b.forest.kindAt place = .separator) :
    place = .separatorRun := by
  cases place with
  | finish | startToken | endToken | flush | word => cases kind
  | separatorRun => rfl
  | body region | closing region path => cases region <;> cases kind
  | opening path =>
      have gathers := h.kindAt_opening path
      rw [kind] at gathers
      split at gathers
      · cases gathers
      · next region _ => cases region <;> cases gathers
      · cases gathers

/-- A separator segment is the longest run of separators. -/
theorem first_of_separator (h : b.Lexing) {c : Char} {rest : List Char}
    (kind : b.forest.kindAt (b.first c rest).place = .separator) :
    (∀ d ∈ (b.first c rest).text, b.separates d = true) ∧
      ∀ d ∈ (b.first c rest).rest.head?, b.separates d = false := by
  have leads : b.onward .startToken (some c) = .separatorRun := by
    by_contra apart
    exact munch_ne_separatorRun (h.onward_startToken_reads c) apart rest (h.eq_separatorRun kind)
  have run := h.toFormed.cutFrom_separatorRun rest
  have text : (b.munch .separatorRun rest).text = rest.takeWhile b.separates :=
    congrArg (·.segment.text) run
  have left : (b.munch .separatorRun rest).rest = rest.dropWhile b.separates :=
    congrArg Cut.rest run
  simp only [first, Munch.carry, leads, text, left]
  constructor
  · intro d mem
    obtain rfl | mem := List.mem_cons.mp mem
    · exact (separates_of_onward leads).2
    · exact List.all_eq_true.mp List.all_takeWhile d mem
  · intro d next
    have stops := List.head?_dropWhile_not b.separates rest
    rw [Option.mem_def.mp next] at stops
    exact stops

/-- The separator segments of a text are longest runs of separators. -/
theorem suffix_segments (h : b.Lexing) (text : List Char) :
    ∀ p after, p :: after <:+ b.segments text → p.kind = .separator →
      (∀ c ∈ p.text, b.separates c = true) ∧
        ∀ c ∈ (after.flatMap Segment.text).head?, b.separates c = false := by
  induction text using segments.induct b with
  | case1 =>
      intro p after part
      rw [segments_nil] at part
      cases List.suffix_nil.mp part
  | case2 c rest ih =>
      intro p after part kind
      rw [segments_cons] at part
      obtain same | part := List.suffix_cons_iff.mp part
      · obtain ⟨rfl, rfl⟩ := List.cons.inj same
        rw [flatMap_segments]
        exact h.first_of_separator kind
      · exact ih p after part kind

/-- Joining word text leaves the runs of separators as they are. -/
theorem suffix_join (h : b.Lexing) (text : List Char) :
    ∀ p after, p :: after <:+ Segment.join (b.segments text) → p.kind = .separator →
      (∀ c ∈ p.text, b.separates c = true) ∧
        ∀ c ∈ (after.flatMap Segment.text).head?, b.separates c = false := by
  apply Segment.forall_suffix_join (P := fun p behind => p.kind = .separator →
    (∀ c ∈ p.text, b.separates c = true) ∧ ∀ c ∈ behind.head?, b.separates c = false)
  · exact h.suffix_segments text
  · intro p behind word separator
    cases word.symm.trans separator

/-- Runs of separators are not adjacent: the first character of the second one would separate words
and would not. -/
theorem isChain_join_separator (h : b.Lexing) (text : List Char) :
    (Segment.join (b.segments text)).IsChain fun p q =>
      ¬ (p.kind = .separator ∧ q.kind = .separator) := by
  apply List.isChain_iff_forall_rel_of_append_cons_cons.mpr
  rintro p q front rest split ⟨first, second⟩
  have listed : q ∈ Segment.join (b.segments text) := by simp [split]
  obtain ⟨c, more, spelt⟩ := List.exists_cons_of_ne_nil (text_ne_of_mem_join listed)
  have stops := (h.suffix_join text p (q :: rest) ⟨front, split.symm⟩ first).2 c (by simp [spelt])
  have stays := (h.suffix_join text q rest ⟨front ++ [p], by simp [split]⟩ second).1 c
    (by simp [spelt])
  rw [stays] at stops
  cases stops

/-- What the tokens of a text are apart from their places. -/
theorem map_content_tokenize (h : b.Lexing) (text : String) :
    ((Tables.ofBlueprint b).tokenize text false).map Token.content =
      Segment.join (b.segments text.toList) := by
  rw [h.tokenize_eq]
  exact Segment.map_content_tokens _ _

end Lexing

end Blueprint

theorem Token.flatMap_content (tokens : List Token) :
    (tokens.map Token.content).flatMap Segment.text =
      (String.join (tokens.map Token.text)).toList := by
  rw [String.toList_join, List.flatMap_map, List.flatMap_map]
  rfl

/-- Neither words nor separators are adjacent in the tokens of a text. A separator token consists of
characters that separate words by the alphabet of the rules, and the next character of the text
does not. -/
theorem tokenize_coalesces (ds : List Declaration) (text : String) :
    let r := RuleSet.ofDeclarations ds
    let tokens := r.compile.tokenize text false
    let separates := fun c => r.alphabet.isSeparator (r.alphabet.symbolOf (some c))
    (tokens.IsChain fun before after =>
      ¬ (before.kind = .word ∧ after.kind = .word) ∧
        ¬ (before.kind = .separator ∧ after.kind = .separator)) ∧
    ∀ front token rest, tokens = front ++ token :: rest → token.kind = .separator →
      (∀ c ∈ token.text.toList, separates c = true) ∧
      ∃ behind, text = String.join (front.map Token.text) ++ (token.text ++ behind) ∧
        ∀ c ∈ behind.toList.head?, separates c = false := by
  intro r tokens separates
  have h := Blueprint.Lexing.of_declarations ds
  have contents : tokens.map Token.content = Segment.join (r.blueprint.segments text.toList) :=
    h.map_content_tokenize text
  constructor
  · have words := Segment.isChain_join (r.blueprint.segments text.toList)
    have runs := h.isChain_join_separator text.toList
    rw [← contents, List.isChain_map] at words runs
    apply List.isChain_iff_forall_rel_of_append_cons_cons.mpr
    intro before after front rest split
    exact ⟨List.isChain_iff_forall_rel_of_append_cons_cons.mp words split,
      List.isChain_iff_forall_rel_of_append_cons_cons.mp runs split⟩
  · intro front token rest split kind
    have part : token.content :: rest.map Token.content <:+
        Segment.join (r.blueprint.segments text.toList) :=
      ⟨front.map Token.content, by rw [← contents, split, List.map_append, List.map_cons]⟩
    obtain ⟨inside, behind⟩ := h.suffix_join text.toList _ _ part kind
    rw [Token.flatMap_content] at behind
    refine ⟨inside, String.join (rest.map Token.text), ?_, behind⟩
    have whole : (String.join (tokens.map Token.text)).toList = text.toList := by
      rw [← Token.flatMap_content, contents, Segment.flatMap_join, Blueprint.flatMap_segments]
    apply String.toList_injective
    rw [← whole, split]
    simp [String.toList_join]

/-- A comma that is an operator besides does not divide a run of separators. -/
theorem separators_of_rules_coalesce :
    let r := RuleSet.ofDeclarations [.operators [","], .separators " ,;", .ignoreCase true]
    let tokens := r.compile.tokenize "a ,;b" false
    let token : Token := ⟨.separator, " ,;", ⟨1, 2⟩, StateId.separatorRun⟩
    let separates := fun c => r.alphabet.isSeparator (r.alphabet.symbolOf (some c))
    ∃ word rest, tokens = [word] ++ token :: rest ∧
      (∀ c ∈ token.text.toList, separates c = true) ∧
      ∃ behind, "a ,;b" = String.join ([word].map Token.text) ++ (token.text ++ behind) ∧
        ∀ c ∈ behind.toList.head?, separates c = false := by
  intro r tokens token separates
  have split : tokens = [⟨.word, "a", ⟨1, 1⟩, StateId.word⟩] ++ token ::
      [⟨.word, "b", ⟨1, 5⟩, StateId.word⟩] := by decide +kernel
  obtain ⟨-, runs⟩ := tokenize_coalesces
    [.operators [","], .separators " ,;", .ignoreCase true] "a ,;b"
  exact ⟨_, _, split, runs _ token _ split rfl⟩

end TableLexer
