import TableLexer.Proofs.FirstTokens

/-!
# Where literals end

A literal whose border is one character ends at the first border that is not escaped. Without an
escape character, that is the first border of all; with one, it is the first border that does not
stand behind the escape character. If the border escapes itself, borders are passed in pairs, and
the literal ends with the first run of them that has an odd length.
-/

namespace TableLexer

variable {border : Char} {escape : Option Char}

/-- A text up to and including the first place with a property, or all of it if there is none. -/
structure UpToFirst (P : Nat → Prop) (text part : List Char) : Prop where
  found : ∀ i, P i → (∀ j < i, ¬ P j) → part = text.take (i + 1)
  missing : (∀ i, ¬ P i) → part = text

namespace UpToFirst

variable {P Q : Nat → Prop} {text part : List Char}

/-- A first character with the property is all that is taken. -/
theorem here {c : Char} (ends : P 0) : UpToFirst P (c :: text) [c] := by
  constructor
  · intro i _ first
    cases i with
    | zero => rfl
    | succ i => exact absurd ends (first 0 i.succ_pos)
  · intro none
    exact absurd ends (none 0)

/-- What is passed does not have the property, and the search goes on behind it. -/
theorem pass (h : UpToFirst Q text part) (passed : List Char)
    (behind : ∀ i, P i ↔ ∃ k, i = k + passed.length ∧ Q k) :
    UpToFirst P (passed ++ text) (passed ++ part) := by
  have later : ∀ k, Q k → P (k + passed.length) := fun k held => (behind _).mpr ⟨k, rfl, held⟩
  constructor
  · intro i here first
    obtain ⟨k, rfl, held⟩ := (behind i).mp here
    have least : ∀ j < k, ¬ Q j := fun j lt => mt (later j) (first _ (Nat.add_lt_add_right lt _))
    have length : k + passed.length + 1 = passed.length + (k + 1) := by omega
    rw [h.found k held least, length, List.take_length_add_append]
  · intro none
    rw [h.missing fun k => mt (later k) (none _)]

end UpToFirst

/-! ## Runs of odd length -/

/-- At a place of a text ends a longest run of a character, and the run has an odd length. -/
def EndsOddRun (c : Char) (text : List Char) (i : Nat) : Prop :=
  ∃ front n rest, text = front ++ (List.replicate (2 * n + 1) c ++ rest) ∧
    front.getLast? ≠ some c ∧ rest.head? ≠ some c ∧ i = front.length + 2 * n

namespace EndsOddRun

variable {c : Char} {rest : List Char}

theorem head (single : rest.head? ≠ some c) : EndsOddRun c (c :: rest) 0 :=
  ⟨[], 0, rest, rfl, by simp, single, rfl⟩

/-- Another character in front does not belong to a run. -/
theorem cons_iff {d : Char} (other : d ≠ c) (i : Nat) :
    EndsOddRun c (d :: rest) i ↔ ∃ k, i = k + 1 ∧ EndsOddRun c rest k := by
  have last : ∀ front : List Char, (d :: front).getLast? = some c ↔ front.getLast? = some c := by
    intro front
    cases front with
    | nil => simpa using other
    | cons e front => rw [List.getLast?_cons_cons]
  constructor
  · rintro ⟨front, n, left, split, begins, ends, rfl⟩
    cases front with
    | nil => exact absurd (List.cons.inj split).1 other
    | cons e front =>
        obtain ⟨rfl, behind⟩ := List.cons.inj split
        refine ⟨front.length + 2 * n, ?_, front, n, left, behind, mt (last front).mpr begins, ends,
          rfl⟩
        rw [List.length_cons]
        omega
  · rintro ⟨_, rfl, front, n, left, rfl, begins, ends, rfl⟩
    refine ⟨d :: front, n, left, rfl, mt (last front).mp begins, ends, ?_⟩
    rw [List.length_cons]
    omega

/-- Two more of the character in front change no length from odd to even. -/
theorem pair_iff (i : Nat) :
    EndsOddRun c (c :: c :: rest) i ↔ ∃ k, i = k + 2 ∧ EndsOddRun c rest k := by
  constructor
  · rintro ⟨front, n, left, split, begins, ends, rfl⟩
    match front, n with
    | [], 0 =>
        obtain rfl : c :: rest = left := (List.cons.inj split).2
        exact absurd rfl ends
    | [], n + 1 =>
        have behind : rest = List.replicate (2 * n + 1) c ++ left :=
          (List.cons.inj (List.cons.inj split).2).2
        refine ⟨2 * n, ?_, [], n, left, behind, by simp, ends, (Nat.zero_add _).symm⟩
        rw [List.length_nil]
        omega
    | [d], n =>
        obtain ⟨rfl, -⟩ := List.cons.inj split
        exact absurd rfl begins
    | d :: e :: front, n =>
        obtain ⟨first, split'⟩ := List.cons.inj split
        obtain ⟨second, behind⟩ := List.cons.inj split'
        rw [← first, ← second] at begins
        refine ⟨front.length + 2 * n, ?_, front, n, left, behind, fun same => begins ?_, ends, rfl⟩
        · simp only [List.length_cons]
          omega
        · simp [List.getLast?_cons, same]
  · rintro ⟨_, rfl, front, n, left, rfl, begins, ends, rfl⟩
    cases front with
    | nil =>
        refine ⟨[], n + 1, left, rfl, by simp, ends, ?_⟩
        rw [List.length_nil]
        omega
    | cons d front =>
        refine ⟨c :: c :: d :: front, n, left, rfl, ?_, ends, ?_⟩
        · simpa only [List.getLast?_cons_cons] using begins
        · simp only [List.length_cons]
          omega

end EndsOddRun

/-! ## Borders that end a literal -/

/-- At a place of a text stands a border, and the escape character does not stand before it. -/
def Unescaped (border e : Char) (text : List Char) (i : Nat) : Prop :=
  text[i]? = some border ∧ ∀ j, i = j + 1 → text[j]? ≠ some e

/-- At a place of the text behind the first border of a literal stands a border that ends it. -/
def ClosesLiteral (border : Char) (escape : Option Char) (text : List Char) (i : Nat) : Prop :=
  match escape with
  | none => text[i]? = some border
  | some e => if e = border then EndsOddRun border text i else Unescaped border e text i

namespace Unescaped

variable {e c : Char} {rest : List Char}

/-- Another character is no border, and escapes nothing if no border follows it. -/
theorem cons_iff (other : c ≠ border) (plain : e = c → rest.head? ≠ some border) (i : Nat) :
    Unescaped border e (c :: rest) i ↔ ∃ k, i = k + 1 ∧ Unescaped border e rest k := by
  match i with
  | 0 => simp [Unescaped, other]
  | 1 =>
      have here : rest[0]? = some border → c ≠ e := by
        rw [← List.head?_eq_getElem?]
        exact fun closes same => plain same.symm closes
      simpa [Unescaped] using here
  | i + 2 => simp [Unescaped]

/-- A border behind the escape character is passed with it. -/
theorem pair_iff (apart : e ≠ border) (i : Nat) : Unescaped border e (e :: border :: rest) i ↔
    ∃ k, i = k + 2 ∧ Unescaped border e rest k := by
  match i with
  | 0 => simp [Unescaped, apart]
  | 1 => simp [Unescaped]
  | 2 => simp [Unescaped, apart.symm]
  | i + 3 => simp [Unescaped]

end Unescaped

namespace ClosesLiteral

variable {rest : List Char}

theorem head (single : escape = some border → rest.head? ≠ some border) :
    ClosesLiteral border escape (border :: rest) 0 := by
  cases escape with
  | none => rfl
  | some e =>
      rw [ClosesLiteral]
      split
      · next same =>
          subst same
          exact .head (single rfl)
      · exact ⟨rfl, fun j here => absurd here (Nat.succ_ne_zero j).symm⟩

/-- Another character closes nothing, and escapes nothing if no border follows it. -/
theorem cons_iff {c : Char} (other : c ≠ border)
    (plain : escape = some c → rest.head? ≠ some border) (i : Nat) :
    ClosesLiteral border escape (c :: rest) i ↔
      ∃ k, i = k + 1 ∧ ClosesLiteral border escape rest k := by
  cases escape with
  | none => cases i <;> simp [ClosesLiteral, other]
  | some e =>
      simp only [ClosesLiteral]
      split
      · exact EndsOddRun.cons_iff other i
      · exact Unescaped.cons_iff other (fun same => plain (congrArg some same)) i

/-- A border behind the escape character closes nothing. -/
theorem pair_iff {e : Char} (i : Nat) : ClosesLiteral border (some e) (e :: border :: rest) i ↔
    ∃ k, i = k + 2 ∧ ClosesLiteral border (some e) rest k := by
  simp only [ClosesLiteral]
  split
  · next same =>
      subst same
      exact EndsOddRun.pair_iff i
  · next apart => exact Unescaped.pair_iff apart i

end ClosesLiteral

/-! ## The body of a literal -/

namespace Rule

/-- A literal with a border of one character and at most one character as its escape text. -/
def charLiteral (border : Char) (escape : Option Char) : Rule :=
  .literal (String.singleton border) (String.ofList escape.toList)

theorem begins_charLiteral {path : List Char} :
    begins (charLiteral border escape).bodyTexts path = true ↔
      path <+: [border] ∨ ∃ e, escape = some e ∧ path <+: [e, border] := by
  rw [begins_iff]
  cases escape with
  | none => simp [charLiteral, bodyTexts]
  | some e => simp [charLiteral, bodyTexts]

theorem closeText_charLiteral : (charLiteral border escape).closeText = [border] :=
  String.toList_singleton border

/-- Beginnings of the texts that matter are found in front of an input if the next character does
not belong to them. -/
theorem longest_charLiteral (path : List Char) {rest : List Char}
    (begun : path <+: [border] ∨ ∃ e, escape = some e ∧ path <+: [e, border])
    (single : ∀ c ∈ rest.head?, ¬ path ++ [c] <+: [border])
    (broken : ∀ c ∈ rest.head?, ∀ e, escape = some e → ¬ path ++ [c] <+: [e, border]) :
    longestBeginning (charLiteral border escape).bodyTexts (path ++ rest) = path := by
  apply longestBeginning_append (.inr (begins_charLiteral.mpr begun))
  intro c next
  rw [Bool.eq_false_iff, ne_eq, begins_charLiteral]
  rintro (more | ⟨e, held, more⟩)
  · exact single c next more
  · exact broken c next e held more

variable {rest : List Char}

/-- A border that escapes no other one ends the body. -/
theorem body_of_border (single : escape = some border → rest.head? ≠ some border) :
    (charLiteral border escape).body (border :: rest) = ([border], rest) := by
  have longest : longestBeginning (charLiteral border escape).bodyTexts ([border] ++ rest) =
      [border] := by
    apply longest_charLiteral [border] (.inl List.prefix_rfl)
    · simp
    · intro c next e held more
      obtain ⟨rfl, rfl⟩ : border = e ∧ c = border := by simpa using more
      exact single held next
  exact body_append_of_eq longest (List.cons_ne_nil _ _) closeText_charLiteral.symm

/-- A border behind the escape character is passed with it. -/
theorem body_of_escaped {e : Char} (held : escape = some e) :
    (charLiteral border escape).body (e :: border :: rest) =
      (e :: border :: ((charLiteral border escape).body rest).1,
        ((charLiteral border escape).body rest).2) := by
  have longest : longestBeginning (charLiteral border escape).bodyTexts ([e, border] ++ rest) =
      [e, border] := longest_charLiteral _ (.inr ⟨e, held, List.prefix_rfl⟩) (by simp) (by simp)
  apply body_append_of_ne longest (List.cons_ne_nil _ _)
  simp [closeText_charLiteral]

/-- Any other character is passed. -/
theorem body_of_other {c : Char} (other : c ≠ border)
    (plain : escape = some c → rest.head? ≠ some border) :
    (charLiteral border escape).body (c :: rest) =
      (c :: ((charLiteral border escape).body rest).1,
        ((charLiteral border escape).body rest).2) := by
  by_cases escapes : escape = some c
  · have longest : longestBeginning (charLiteral border escape).bodyTexts ([c] ++ rest) = [c] := by
      apply longest_charLiteral [c] (.inr ⟨c, escapes, by simp⟩)
      · simp
      · intro d next e _ more
        obtain ⟨-, rfl⟩ : c = e ∧ d = border := by simpa using more
        exact plain escapes next
    apply body_append_of_ne longest (List.cons_ne_nil _ _)
    simpa [closeText_charLiteral] using other
  · apply body_cons_of_free
    apply longest_charLiteral [] (.inl List.nil_prefix)
    · rintro d ⟨⟩
      simpa using other
    · rintro d ⟨⟩ e held more
      obtain rfl : c = e := by simpa using more
      exact escapes held

/-- The recursion of a body: it ends with a border that escapes no other one; an escaped border is
passed with what escapes it, and any other character alone. -/
theorem charLiteral_rec {P : List Char → List Char → Prop} (nil : P [] [])
    (closed : ∀ rest, (escape = some border → rest.head? ≠ some border) →
      P (border :: rest) [border])
    (pair : ∀ e rest part, escape = some e → P rest part →
      P (e :: border :: rest) (e :: border :: part))
    (passed : ∀ c rest part, c ≠ border → (escape = some c → rest.head? ≠ some border) →
      P rest part → P (c :: rest) (c :: part)) (input : List Char) :
    P input ((charLiteral border escape).body input).1 := by
  induction length : input.length using Nat.strongRecOn generalizing input with
  | ind n ih =>
      cases input with
      | nil =>
          rw [body]
          exact nil
      | cons c rest =>
          by_cases escapes : escape = some c ∧ rest.head? = some border
          · obtain ⟨held, next⟩ := escapes
            obtain ⟨rest, rfl⟩ := List.head?_eq_some_iff.mp next
            rw [body_of_escaped held]
            have shorter : rest.length < n := by
              simp only [← length, List.length_cons]
              omega
            exact pair c rest _ held (ih rest.length shorter rest rfl)
          · have plain : escape = some c → rest.head? ≠ some border :=
              fun held next => escapes ⟨held, next⟩
            by_cases closes : c = border
            · subst closes
              rw [body_of_border plain]
              exact closed rest plain
            · rw [body_of_other closes plain]
              exact passed c rest _ closes plain (ih rest.length (by simp [← length]) rest rfl)

/-- The body of a literal reaches to the first border that closes it. -/
theorem upToFirst_body (border : Char) (escape : Option Char) (input : List Char) :
    UpToFirst (ClosesLiteral border escape input) input
      ((charLiteral border escape).body input).1 := by
  refine charLiteral_rec (P := fun text part => UpToFirst (ClosesLiteral border escape text) text
    part) ?nil ?closed ?pair ?passed input
  case nil =>
    refine ⟨fun i _ _ => List.take_nil.symm, fun _ => rfl⟩
  case closed =>
    intro rest single
    exact .here (.head single)
  case pair =>
    rintro e rest part rfl behind
    exact behind.pass [e, border] ClosesLiteral.pair_iff
  case passed =>
    intro c rest part other plain behind
    exact behind.pass [c] (ClosesLiteral.cons_iff other plain)

end Rule

/-- A literal that begins a text has the text behind its first border as its body, up to the first
border that closes it: the first border of all, the first one that the escape character does not
stand before, or, if the border escapes itself, the last one of the first run of odd length. If
there is none, the literal takes the whole text. -/
theorem literal_ends_at_border {ds : List Declaration} (border : Char) (escape : Option Char)
    (sensitive : (RuleSet.ofDeclarations ds).ignoreCase = false)
    (owner : (RuleSet.ofDeclarations ds).lastRule? [border] =
      some (.literal (String.singleton border) (String.ofList escape.toList)))
    (alone : ∀ rule ∈ (RuleSet.ofDeclarations ds).rules, [border] <+: rule.openText.toList →
      rule.openText = String.singleton border) (text : String) :
    ∃ body, StartWith .literal
        ((RuleSet.ofDeclarations ds).compile.tokenize (String.singleton border ++ text) false)
        (border :: body) ∧
      UpToFirst (ClosesLiteral border escape text.toList) text.toList body := by
  have opening : (Rule.charLiteral border escape).openText = String.singleton border := rfl
  have spelt : (Rule.charLiteral border escape).openText.toList = [border] :=
    String.toList_singleton border
  have first := RuleSet.tokenize_opening (.charLiteral border escape) sensitive rfl
    (spelt ▸ owner) (spelt ▸ alone) text
  rw [spelt] at first
  exact ⟨_, first, Rule.upToFirst_body border escape text.toList⟩

/-- A bar that escapes itself ends a literal where an odd number of bars stands, although it
separates words and closes comments besides. -/
theorem doubled_bars_are_passed :
    let r := RuleSet.ofDeclarations
      [.keywords ["if"], .comment "/*" "|", .separators "| ", .literal "|" "|"]
    (r.ignoreCase = false ∧ r.lastRule? ['|'] = some (.literal "|" "|") ∧
      ∀ rule ∈ r.rules, ['|'] <+: rule.openText.toList → rule.openText = "|") ∧
    ∃ body, StartWith .literal (r.compile.tokenize ("|" ++ "if||a||| b|") false) ('|' :: body) ∧
      UpToFirst (ClosesLiteral '|' (some '|') "if||a||| b|".toList) "if||a||| b|".toList body := by
  intro r
  have sensitive : r.ignoreCase = false := rfl
  have owner : r.lastRule? ['|'] = some (.literal "|" "|") := by decide
  have alone : ∀ rule ∈ r.rules, ['|'] <+: rule.openText.toList → rule.openText = "|" := by decide
  exact ⟨⟨sensitive, owner, alone⟩,
    literal_ends_at_border '|' (some '|') sensitive owner alone "if||a||| b|"⟩

end TableLexer
