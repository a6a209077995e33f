import TableLexer.Proofs.FirstTokens

/-!
# Where comments end

Inside a comment, as much as possible of the closing text is read. If it breaks off, what was read
of it is passed, and the search starts again with the character that did not fit. So an occurrence
of the closing text is missed if it begins inside what was passed. The texts for which that cannot
happen are those of which every beginning that ends with a shorter beginning goes on as that does.
-/

namespace TableLexer

variable {closing : List Char}

/-- What the body of a comment should be: the text up to the end of the first place where the
closing text occurs, or all of it. -/
structure EndsFirst (closing text body : List Char) : Prop where
  found : closing <:+: text → ∃ front, body = front ++ closing ∧ body <+: text ∧
    ∀ other, other ++ closing <+: text → front.length ≤ other.length
  missing : ¬ closing <:+: text → body = text

/-- A text can be searched for afresh from the character that did not fit: whenever one of its
beginnings ends with a shorter one, the same character follows both. -/
def Restartable (closing : List Char) : Prop :=
  ∀ k < closing.length, ∀ b < k, 0 < b → closing.take b <:+ closing.take k →
    closing[b]? = closing[k]?

instance : DecidablePred Restartable := fun closing =>
  inferInstanceAs (Decidable (∀ k < closing.length, ∀ b < k, 0 < b →
    closing.take b <:+ closing.take k → closing[b]? = closing[k]?))

/-! ## One step of a search -/

/-- The character behind a beginning of the closing text does not continue it. -/
def BreaksOff (closing path rest : List Char) : Prop :=
  ∀ c ∈ rest.head?, closing[path.length]? ≠ some c

/-- An input begins with some beginning of the closing text that breaks off or is complete. -/
theorem exists_breaksOff (closing input : List Char) :
    ∃ path rest, input = path ++ rest ∧ path <+: closing ∧ BreaksOff closing path rest := by
  induction closing generalizing input with
  | nil => exact ⟨[], input, rfl, List.nil_prefix, by simp [BreaksOff]⟩
  | cons d closing ih =>
      cases input with
      | nil => exact ⟨[], [], rfl, List.nil_prefix, by simp [BreaksOff]⟩
      | cons c input =>
          by_cases same : c = d
          · subst same
            obtain ⟨path, rest, rfl, begun, broken⟩ := ih input
            exact ⟨c :: path, rest, rfl, (List.prefix_cons_inj c).mpr begun, by
              simpa [BreaksOff] using broken⟩
          · refine ⟨[], c :: input, rfl, List.nil_prefix, ?_⟩
            rintro e ⟨⟩
            simpa using Ne.symm same

theorem longestBeginning_of_breaksOff {path rest : List Char} (begun : path <+: closing)
    (broken : BreaksOff closing path rest) : longestBeginning [closing] (path ++ rest) = path := by
  apply longestBeginning_append
  · exact .inr (begins_iff.mpr ⟨closing, List.mem_singleton_self closing, begun⟩)
  · intro c next
    rw [Bool.eq_false_iff]
    intro more
    obtain ⟨text, mem, fits⟩ := begins_iff.mp more
    cases List.mem_singleton.mp mem
    obtain ⟨left, rfl⟩ := fits
    apply broken c next
    simp

/-- An occurrence across the border of a front has begun at the end of the front and goes on with
the character behind it. -/
theorem across_border {path rest front : List Char} {b : Nat}
    (occurs : front ++ closing <+: path ++ rest) (length : path.length = front.length + b)
    (unfinished : b < closing.length) :
    path = front ++ closing.take b ∧ rest.head? = closing[b]? := by
  obtain ⟨more, split⟩ := occurs
  constructor
  · have fronts := congrArg (List.take path.length) split
    rw [List.take_left, length, List.append_assoc, List.take_length_add_append,
      List.take_append_of_le_length unfinished.le] at fronts
    exact fronts.symm
  · have chars := congrArg (·[path.length]?) split
    simp only [List.getElem?_append_right (Nat.le_refl path.length), Nat.sub_self] at chars
    rw [List.head?_eq_getElem?, ← chars, length, List.append_assoc, List.getElem?_append_right
      (Nat.le_add_right _ _), Nat.add_sub_cancel_left, List.getElem?_append_left unfinished]

/-- No occurrence of a restartable text begins inside a beginning of it that broke off: it would go
on with the character that did not fit. -/
theorem Restartable.length_le {path rest front : List Char} (h : Restartable closing)
    (begun : path <+: closing) (proper : path ≠ closing) (broken : BreaksOff closing path rest)
    (occurs : front ++ closing <+: path ++ rest) : path.length ≤ front.length := by
  by_contra inside
  have shorter : path.length < closing.length :=
    Nat.lt_of_le_of_ne begun.length_le fun same => proper (begun.eq_of_length same)
  obtain ⟨b, length⟩ := Nat.exists_eq_add_of_le (Nat.le_of_not_le inside)
  have unfinished : b < closing.length := by omega
  obtain ⟨shared, next⟩ := across_border occurs length unfinished
  have same : closing[b]? = closing[path.length]? := by
    cases front with
    | nil => rw [length, List.length_nil, Nat.zero_add]
    | cons c front =>
        apply h path.length shorter b (by simp at length; omega) (by omega)
        rw [← List.prefix_iff_eq_take.mp begun]
        exact ⟨c :: front, shared.symm⟩
  have held := List.getElem?_eq_getElem unfinished
  exact broken closing[b] (next.trans held) (same.symm.trans held)

/-! ## The body of a comment -/

namespace Rule

variable (opening : String) {closing : String} {path rest : List Char}

/-- What breaks off is passed. -/
theorem body_of_breaksOff (begun : path <+: closing.toList) (proper : path ≠ closing.toList)
    (some_read : path ≠ []) (broken : BreaksOff closing.toList path rest) :
    (comment opening closing).body (path ++ rest) =
      (path ++ ((comment opening closing).body rest).1,
        ((comment opening closing).body rest).2) :=
  body_append_of_ne (longestBeginning_of_breaksOff begun broken) some_read proper

/-- A character with which the closing text does not begin is passed. -/
theorem body_of_head_ne {c : Char} (other : closing.toList.head? ≠ some c) :
    (comment opening closing).body (c :: rest) =
      (c :: ((comment opening closing).body rest).1,
        ((comment opening closing).body rest).2) := by
  have broken : BreaksOff closing.toList [] (c :: rest) := by
    rintro d ⟨⟩
    rwa [List.length_nil, ← List.head?_eq_getElem?]
  exact body_cons_of_free (longestBeginning_of_breaksOff List.nil_prefix broken)

/-- The closing text ends the body. -/
theorem body_of_closes (closes : closing ≠ "") :
    (comment opening closing).body (closing.toList ++ rest) = (closing.toList, rest) := by
  have some_left : closing.toList ≠ [] := by simpa using closes
  have complete : BreaksOff closing.toList closing.toList rest := by
    intro c _
    simp
  exact body_append_of_eq (longestBeginning_of_breaksOff List.prefix_rfl complete) some_left rfl

/-- The recursion of a body: it ends with the closing text in front, or something is passed and it
goes on with what follows. No occurrence of a restartable text begins in what is passed. -/
theorem body_rec {P : List Char → List Char × List Char → Prop} (closes : closing ≠ "")
    (nil : P [] ([], []))
    (closed : ∀ rest, P (closing.toList ++ rest) (closing.toList, rest))
    (passes : ∀ passed left body,
      (Restartable closing.toList → ∀ front, front ++ closing.toList <+: passed ++ left →
        passed.length ≤ front.length) →
      P left body → P (passed ++ left) (passed ++ body.1, body.2)) (input : List Char) :
    P input ((comment opening closing).body input) := by
  induction length : input.length using Nat.strongRecOn generalizing input with
  | ind n ih =>
      obtain ⟨path, rest, rfl, begun, broken⟩ := exists_breaksOff closing.toList input
      by_cases complete : path = closing.toList
      · rw [complete, body_of_closes opening closes]
        exact closed rest
      · by_cases some_read : path = []
        · subst some_read
          cases rest with
          | nil =>
              rw [List.nil_append, body]
              exact nil
          | cons c rest =>
              have other : closing.toList.head? ≠ some c := by
                rw [List.head?_eq_getElem?]
                exact broken c rfl
              rw [List.nil_append, body_of_head_ne opening other]
              refine passes [c] rest _ ?_ (ih rest.length (by simp [← length]) rest rfl)
              intro _ front occurs
              cases front with
              | cons d front => simp
              | nil =>
                  obtain ⟨more, split⟩ := occurs
                  obtain ⟨d, text, spelt⟩ := List.exists_cons_of_ne_nil (Ne.symm complete)
                  rw [spelt] at split other
                  exact absurd (congrArg List.head? split) other
        · have shorter : rest.length < n := by
            have := List.length_pos_of_ne_nil some_read
            rw [← length, List.length_append]
            omega
          rw [body_of_breaksOff opening begun complete some_read broken]
          exact passes path rest _ (fun h front => h.length_le begun complete broken)
            (ih rest.length shorter rest rfl)

/-- The body is a front of the input that ends with the closing text, or all of it. -/
theorem body_ends (closes : closing ≠ "") (input : List Char) :
    ((comment opening closing).body input).1 ++ ((comment opening closing).body input).2 = input ∧
      (closing.toList <:+ ((comment opening closing).body input).1 ∨
        ((comment opening closing).body input).2 = []) := by
  refine body_rec opening (P := fun input body => body.1 ++ body.2 = input ∧
    (closing.toList <:+ body.1 ∨ body.2 = [])) closes ⟨rfl, .inr rfl⟩
    (fun rest => ⟨rfl, .inl List.suffix_rfl⟩) ?_ input
  rintro passed left ⟨front, rest⟩ - ⟨rfl, ends⟩
  exact ⟨List.append_assoc .., ends.imp (fun closed => closed.trans (List.suffix_append _ _)) id⟩

/-- An input that is no longer than the closing text is all body. -/
theorem body_of_length_le (closes : closing ≠ "") {input : List Char}
    (short : input.length ≤ closing.toList.length) :
    ((comment opening closing).body input).1 = input := by
  obtain ⟨whole, closed | done⟩ := body_ends opening closes input
  · have lengths := congrArg List.length whole
    rw [List.length_append] at lengths
    have none_left : ((comment opening closing).body input).2 = [] :=
      List.eq_nil_of_length_eq_zero (by have := closed.length_le; omega)
    rwa [none_left, List.append_nil] at whole
  · rwa [done, List.append_nil] at whole

/-- The body of a comment with a restartable closing text ends where that text occurs first. -/
theorem body_endsFirst (closes : closing ≠ "") (restart : Restartable closing.toList)
    (input : List Char) :
    EndsFirst closing.toList input ((comment opening closing).body input).1 := by
  refine body_rec opening (P := fun input body => EndsFirst closing.toList input body.1) closes
    ?_ ?_ ?_ input
  · refine ⟨fun occurs => ?_, fun _ => rfl⟩
    exact absurd (List.infix_nil.mp occurs) (by simpa using closes)
  · intro rest
    refine ⟨fun _ => ⟨[], rfl, List.prefix_append _ _, fun _ _ => Nat.zero_le _⟩, fun free => ?_⟩
    exact absurd (List.prefix_append _ _).isInfix free
  · rintro passed left ⟨body, rest⟩ behind ⟨found, missing⟩
    -- an occurrence lies behind what was passed
    have beyond : ∀ front, front ++ closing.toList <+: passed ++ left →
        ∃ front', front = passed ++ front' ∧ front' ++ closing.toList <+: left := by
      intro front occurs
      have enclosed : passed <+: front := List.prefix_of_prefix_length_le
        (List.prefix_append passed left) ((List.prefix_append front _).trans occurs)
        (behind restart front occurs)
      obtain ⟨front', rfl⟩ := enclosed
      rw [List.append_assoc] at occurs
      exact ⟨front', rfl, (List.prefix_append_right_inj passed).mp occurs⟩
    constructor
    · rintro ⟨front, more, split⟩
      obtain ⟨front', -, occurs⟩ := beyond front ⟨more, split⟩
      obtain ⟨first, rfl, within, least⟩ :=
        found ((List.suffix_append front' _).isInfix.trans occurs.isInfix)
      refine ⟨passed ++ first, (List.append_assoc ..).symm,
        (List.prefix_append_right_inj passed).mpr within, ?_⟩
      intro other occurs'
      obtain ⟨other', rfl, occurs''⟩ := beyond other occurs'
      have := least other' occurs''
      simp only [List.length_append]
      omega
    · intro free
      have absent : ¬ closing.toList <:+: left := fun occurs =>
        free (occurs.trans (List.suffix_append passed left).isInfix)
      exact congrArg (passed ++ ·) (missing absent)

/-- If the closing text is not restartable, some body runs past its first occurrence. -/
theorem exists_body_not_endsFirst (closes : closing ≠ "") (h : ¬ Restartable closing.toList) :
    ∃ input, ¬ EndsFirst closing.toList input ((comment opening closing).body input).1 := by
  simp only [Restartable, not_forall] at h
  obtain ⟨k, within, b, smaller, positive, ⟨front, border⟩, other⟩ := h
  let path := closing.toList.take k
  -- the character that breaks off the longer beginning completes an occurrence behind the shorter
  let rest := closing.toList.drop b ++ [' ']
  have length : path.length = k := by simp [path]; omega
  have broken : BreaksOff closing.toList path rest := by
    intro c next held
    rw [length] at held
    rw [List.head?_append_of_ne_nil _ (by simp; omega), List.head?_drop] at next
    exact other (next.trans held.symm)
  have whole : ((comment opening closing).body (path ++ rest)).1 = path ++ rest := by
    have proper : path ≠ closing.toList := fun same => by rw [same] at length; omega
    have some_read : path ≠ [] := fun none => by rw [none] at length; simp at length; omega
    rw [body_of_breaksOff opening (List.take_prefix k _) proper some_read broken]
    show path ++ _ = _
    rw [body_of_length_le opening closes (by simp [rest]; omega)]
  refine ⟨path ++ rest, fun ends => ?_⟩
  have split : path ++ rest = front ++ closing.toList ++ [' '] := by
    simp only [path, rest, ← border, List.append_assoc]
    rw [← List.append_assoc (List.take b _), List.take_append_drop]
  rw [whole, split] at ends
  obtain ⟨front', same, -, least⟩ := ends.found ⟨front, [' '], rfl⟩
  have lengths := congrArg List.length same
  have := least front (List.prefix_append _ _)
  simp only [List.length_append, List.length_singleton] at lengths
  omega

end Rule

/-! ## The first token -/

/-- The first of some tokens is a comment with the given text. -/
def StartWithComment (tokens : List Token) (text : List Char) : Prop :=
  ∃ token more, tokens = token :: more ∧ token.kind = .comment ∧ token.text.toList = text

theorem StartWithComment.unique {tokens : List Token} {text text' : List Char}
    (h : StartWithComment tokens text) (h' : StartWithComment tokens text') : text = text' :=
  StartWith.unique h h'

/-- A text that begins like a comment begins with one, and its body is divided as the rule says. -/
theorem RuleSet.tokenize_comment {ds : List Declaration} {opening closing : String}
    (sensitive : (ofDeclarations ds).ignoreCase = false)
    (owner : (ofDeclarations ds).lastRule? opening.toList = some (.comment opening closing))
    (longest : ∀ rule ∈ (ofDeclarations ds).rules, opening.toList <+: rule.openText.toList →
      rule.openText = opening) (text : String) :
    StartWithComment ((ofDeclarations ds).compile.tokenize (opening ++ text) false)
      (opening.toList ++ ((Rule.comment opening closing).body text.toList).1) :=
  tokenize_opening (.comment opening closing) sensitive rfl owner longest text

/-- A comment that begins a text reaches to an occurrence of its closing text or to the end of the
text, and it always ends at the first occurrence exactly if the closing text is restartable. -/
theorem comment_ends_first_iff {ds : List Declaration} {opening closing : String}
    (sensitive : (RuleSet.ofDeclarations ds).ignoreCase = false)
    (owner : (RuleSet.ofDeclarations ds).lastRule? opening.toList =
      some (.comment opening closing))
    (closes : closing ≠ "")
    (longest : ∀ rule ∈ (RuleSet.ofDeclarations ds).rules,
      opening.toList <+: rule.openText.toList → rule.openText = opening) :
    let t := (RuleSet.ofDeclarations ds).compile
    (∀ text : String, ∃ body rest,
      StartWithComment (t.tokenize (opening ++ text) false) (opening.toList ++ body) ∧
        body ++ rest = text.toList ∧ (closing.toList <:+ body ∨ rest = [])) ∧
    ((∀ text : String, ∃ body,
      StartWithComment (t.tokenize (opening ++ text) false) (opening.toList ++ body) ∧
        EndsFirst closing.toList text.toList body) ↔ Restartable closing.toList) := by
  intro t
  have first := RuleSet.tokenize_comment sensitive owner longest
  refine ⟨fun text => ⟨_, _, first text, Rule.body_ends opening closes text.toList⟩, ?_, ?_⟩
  · intro all
    by_contra broken
    obtain ⟨input, past⟩ := Rule.exists_body_not_endsFirst opening closes broken
    obtain ⟨body, begun, ends⟩ := all (String.ofList input)
    have same := List.append_cancel_left (begun.unique (first (String.ofList input)))
    rw [same, String.toList_ofList] at ends
    exact past ends
  · intro restart text
    exact ⟨_, first text, Rule.body_endsFirst opening closes restart text.toList⟩

/-- A comment that is closed by a star and a slash ends there, also behind one more star. -/
theorem starred_comment_ends_first :
    let r := RuleSet.ofDeclarations [.operators ["/", "*"], .comment "/*" "*/"]
    (r.ignoreCase = false ∧ r.lastRule? "/*".toList = some (.comment "/*" "*/") ∧
      ∀ rule ∈ r.rules, "/*".toList <+: rule.openText.toList → rule.openText = "/*") ∧
    ∃ body, StartWithComment (r.compile.tokenize ("/*" ++ "a**/b") false) ("/*".toList ++ body) ∧
      EndsFirst "*/".toList "a**/b".toList body := by
  intro r
  have sensitive : r.ignoreCase = false := rfl
  have owner : r.lastRule? "/*".toList = some (.comment "/*" "*/") := by decide
  have longest : ∀ rule ∈ r.rules, "/*".toList <+: rule.openText.toList →
      rule.openText = "/*" := by decide
  obtain ⟨-, always⟩ := comment_ends_first_iff sensitive owner (by decide) longest
  exact ⟨⟨sensitive, owner, longest⟩, always.mpr (by decide) "a**/b"⟩

/-- A comment that is closed by two hyphens and an angle bracket does not end behind one more
hyphen. -/
theorem hyphenated_comment_runs_on :
    let r := RuleSet.ofDeclarations [.comment "<!--" "-->"]
    (r.ignoreCase = false ∧ r.lastRule? "<!--".toList = some (.comment "<!--" "-->") ∧
      ∀ rule ∈ r.rules, "<!--".toList <+: rule.openText.toList → rule.openText = "<!--") ∧
    (r.compile.tokenize ("<!--" ++ "a--->b") false).map Token.outline =
      [(⟨1, 1⟩, ⟨.comment, "<!--a--->b".toList, ()⟩)] ∧
    ¬ ∃ body, StartWithComment (r.compile.tokenize ("<!--" ++ "a--->b") false)
        ("<!--".toList ++ body) ∧ EndsFirst "-->".toList "a--->b".toList body := by
  intro r
  have tokens : (r.compile.tokenize ("<!--" ++ "a--->b") false).map Token.outline =
      [(⟨1, 1⟩, ⟨.comment, "<!--a--->b".toList, ()⟩)] := by decide +kernel
  refine ⟨⟨rfl, by decide, by decide⟩, tokens, ?_⟩
  rintro ⟨body, ⟨token, more, split, -, text⟩, ends⟩
  rw [split, List.map_cons] at tokens
  have same : "<!--".toList ++ body = "<!--".toList ++ "a--->b".toList :=
    text.symm.trans (congrArg (·.2.text) (List.cons.inj tokens).1)
  have whole := List.append_cancel_left same
  obtain ⟨front, closed, -⟩ := ends.found (by decide)
  exact absurd ⟨front, (whole.symm.trans closed).symm⟩
    (show ¬ "-->".toList <:+ "a--->b".toList by decide)

end TableLexer
