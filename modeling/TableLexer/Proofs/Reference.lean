import Mathlib.Data.Nat.Find
import TableLexer.Proofs.Segments

/-!
# A lexer on rule texts

This lexer reads the rules as they are written and knows neither an alphabet nor a table. Three
searches make it up: for the longest beginning of an opening text, for the longest run of
separators or of word text, and, in the body of a comment or a literal, for the longest beginning
of a text that matters there. No text is looked at again once it has been passed.
-/

namespace TableLexer

/-- Whether some text of a list begins with the given one. -/
def begins (texts : List (List Char)) (path : List Char) : Bool := texts.any (path.isPrefixOf ·)

/-- The longest part at the front of an input with which some text of a list begins. -/
def longestBeginning (texts : List (List Char)) (input : List Char) : List Char :=
  input.take (Nat.findGreatest (fun n => begins texts (input.take n) = true) input.length)

section Beginnings

variable {texts : List (List Char)} {path more : List Char}

theorem begins_iff : begins texts path = true ↔ ∃ text ∈ texts, path <+: text := by
  simp [begins]

theorem begins_of_prefix (h : begins texts path = true) {part : List Char} (le : part <+: path) :
    begins texts part = true := by
  obtain ⟨text, mem, inText⟩ := begins_iff.mp h
  exact begins_iff.mpr ⟨text, mem, le.trans inText⟩

/-- A beginning is the longest one if the next character does not belong to it. -/
theorem longestBeginning_append (start : path = [] ∨ begins texts path = true)
    (stop : ∀ c ∈ more.head?, begins texts (path ++ [c]) = false) :
    longestBeginning texts (path ++ more) = path := by
  have greatest : Nat.findGreatest (fun n => begins texts ((path ++ more).take n) = true)
      (path ++ more).length = path.length := by
    refine Nat.findGreatest_eq_iff.mpr ⟨?_, fun nonzero => ?_, fun n longer le further => ?_⟩
    · rw [List.length_append]
      omega
    · rw [List.take_left]
      apply start.resolve_left
      rintro rfl
      exact nonzero rfl
    · cases more with
      | nil =>
          rw [List.append_nil] at le
          omega
      | cons c more =>
          have part : path ++ [c] <+: (path ++ c :: more).take n := by
            refine List.prefix_take_iff.mpr ⟨⟨more, by simp⟩, ?_⟩
            rw [List.length_append, List.length_singleton]
            omega
          have := begins_of_prefix further part
          rw [stop c rfl] at this
          cases this
  rw [longestBeginning, greatest, List.take_left]

end Beginnings

namespace Rule

/-- The kind of the tokens that a rule makes. -/
def kind : Rule → TokenKind
  | exact kind _ => kind
  | comment _ _ => .comment
  | literal _ _ => .literal

/-- The text that ends the body of a comment or a literal. -/
def closeText : Rule → List Char
  | exact _ _ => []
  | comment _ closing => closing.toList
  | literal border _ => border.toList

/-- The texts that matter in the body of a comment or a literal. -/
def bodyTexts : Rule → List (List Char)
  | exact _ _ => []
  | comment _ closing => [closing.toList]
  | literal border escape =>
    if escape = "" then [border.toList] else [border.toList, escape.toList ++ border.toList]

/-- Divides the text after an opening text into the body, with the text that ends it, and the
rest. What has been read of a text that matters is passed if it is not the one that ends the
body. -/
def body (rule : Rule) : List Char → List Char × List Char
  | [] => ([], [])
  | c :: rest =>
    match longestBeginning rule.bodyTexts (c :: rest) with
    | [] => ((c :: (rule.body rest).1), (rule.body rest).2)
    | d :: path =>
      if d :: path = rule.closeText then (d :: path, rest.drop path.length)
      else (d :: path ++ (rule.body (rest.drop path.length)).1,
        (rule.body (rest.drop path.length)).2)
termination_by input => input.length
decreasing_by all_goals simp only [List.length_cons, List.length_drop]; omega

end Rule

namespace Rule

variable {rule : Rule} {path rest : List Char}

/-- A character with which no text that matters begins is passed. -/
theorem body_cons_of_free {c : Char} (free : longestBeginning rule.bodyTexts (c :: rest) = []) :
    rule.body (c :: rest) = (c :: (rule.body rest).1, (rule.body rest).2) := by
  rw [body, free]

/-- What has been read of a text that matters is passed if it does not end the body. -/
theorem body_append_of_ne (longest : longestBeginning rule.bodyTexts (path ++ rest) = path)
    (some_read : path ≠ []) (other : path ≠ rule.closeText) :
    rule.body (path ++ rest) = (path ++ (rule.body rest).1, (rule.body rest).2) := by
  obtain ⟨c, path, rfl⟩ := List.exists_cons_of_ne_nil some_read
  rw [List.cons_append] at longest ⊢
  rw [body, longest]
  simp only [if_neg other, List.drop_left]

/-- The text that ends a body is the last of it. -/
theorem body_append_of_eq (longest : longestBeginning rule.bodyTexts (path ++ rest) = path)
    (some_read : path ≠ []) (ends : path = rule.closeText) :
    rule.body (path ++ rest) = (path, rest) := by
  obtain ⟨c, path, rfl⟩ := List.exists_cons_of_ne_nil some_read
  rw [List.cons_append] at longest ⊢
  rw [body, longest]
  simp only [if_pos ends, List.drop_left]

end Rule

/-- What is left behind a body is the end of what was divided. -/
theorem Rule.body_rest_suffix (rule : Rule) (input : List Char) :
    (rule.body input).2 <:+ input := by
  induction input using Rule.body.induct rule with
  | case1 => simp [Rule.body]
  | case2 c rest none ih =>
      rw [Rule.body, none]
      exact ih.trans (List.suffix_cons c rest)
  | case3 c rest d path found ends =>
      rw [Rule.body, found]
      simp only [if_pos ends]
      exact (List.drop_suffix _ rest).trans (List.suffix_cons c rest)
  | case4 c rest d path found ends ih =>
      rw [Rule.body, found]
      simp only [if_neg ends]
      exact ih.trans ((List.drop_suffix _ rest).trans (List.suffix_cons c rest))

/-- A segment without a label, and what follows it in the text. -/
structure Cut where
  segment : Segment Unit
  rest : List Char

namespace RuleSet

/-- The opening texts of the rules. -/
def openTexts (r : RuleSet) : List (List Char) := r.rules.map fun rule => rule.openText.toList

/-- The last rule with an opening text. -/
def lastRule? (r : RuleSet) (text : List Char) : Option Rule :=
  r.rules.reverse.find? fun rule => rule.openText.toList == text

/-- Whether a character separates words. -/
def separates (r : RuleSet) (c : Char) : Bool := r.separators.contains c

/-- Whether a character stays in a word. -/
def continuesWord (r : RuleSet) (c : Char) : Bool := !r.separates c && !begins r.openTexts [c]

/-- Cuts off the longest beginning of an opening text. If it is complete, its rule decides what it
makes; else it is word text, like what follows. -/
def cutOpening (r : RuleSet) (path rest : List Char) : Cut :=
  match r.lastRule? path with
  | some (.exact kind _) => ⟨⟨kind, path, ()⟩, rest⟩
  | some rule => ⟨⟨rule.kind, path ++ (rule.body rest).1, ()⟩, (rule.body rest).2⟩
  | none => ⟨⟨.word, path ++ rest.takeWhile r.continuesWord, ()⟩, rest.dropWhile r.continuesWord⟩

/-- Cuts off the first segment of a text. -/
def cut (r : RuleSet) (c : Char) (rest : List Char) : Cut :=
  match longestBeginning r.openTexts (c :: rest) with
  | d :: path => r.cutOpening (d :: path) (rest.drop path.length)
  | [] =>
    if r.separates c then
      ⟨⟨.separator, c :: rest.takeWhile r.separates, ()⟩, rest.dropWhile r.separates⟩
    else ⟨⟨.word, c :: rest.takeWhile r.continuesWord, ()⟩, rest.dropWhile r.continuesWord⟩

theorem cutOpening_rest_suffix (r : RuleSet) (path rest : List Char) :
    (r.cutOpening path rest).rest <:+ rest := by
  rw [cutOpening]
  split
  · exact List.suffix_rfl
  · exact Rule.body_rest_suffix _ rest
  · exact List.dropWhile_suffix _

/-- What is left behind the first segment is the end of the text. -/
theorem cut_rest_suffix (r : RuleSet) (c : Char) (rest : List Char) :
    (r.cut c rest).rest <:+ rest := by
  rw [cut]
  split
  · exact (r.cutOpening_rest_suffix _ _).trans (List.drop_suffix _ rest)
  · split <;> exact List.dropWhile_suffix _

theorem length_cut_rest_lt (r : RuleSet) (c : Char) (rest : List Char) :
    (r.cut c rest).rest.length < (c :: rest).length :=
  Nat.lt_succ_of_le (r.cut_rest_suffix c rest).length_le

/-- The segments of a text by the rule texts. -/
def cutAll (r : RuleSet) : List Char → List (Segment Unit)
  | [] => []
  | c :: rest => (r.cut c rest).segment :: r.cutAll (r.cut c rest).rest
termination_by input => input.length
decreasing_by exact r.length_cut_rest_lt c rest

/-- The tokens of a text by the rule texts. -/
def lex (r : RuleSet) (text : String) : List (Position × Segment Unit) :=
  Segment.locate .start (Segment.join (r.cutAll text.toList))

end RuleSet

end TableLexer
