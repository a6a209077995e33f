import TableLexer.Proofs.Compiled
import TableLexer.Stored.Load

/-!
# Tables and their stored parts

Tables come out of a rule set or out of parts that pass the check. Either way they are put together
again from their own parts, so a stored form loses nothing if the parts can be read from it. The
order in which the characters and the exact rules are listed does not count.
-/

namespace TableLexer

namespace Tables

/-- Tables that a rule set compiles to, or that were put together from parts that pass the check. -/
def Admitted (t : Tables) : Prop :=
  (∃ ds : List Declaration, t = (RuleSet.ofDeclarations ds).compile) ∨
    ∃ alphabet rows kinds lexemes, ofParts alphabet rows kinds lexemes = .ok t

/-- The same width, rows and kinds, and the same entry for each character and each text. -/
structure SameContent (t u : Tables) : Prop where
  width : t.width = u.width
  rows : t.rows = u.rows
  kinds : t.kinds = u.kinds
  symbols : ∀ c : Char, t.alphabet.symbols[c]? = u.alphabet.symbols[c]?
  lexemes : ∀ text : String, t.lexemeState? text = u.lexemeState? text

variable {t u : Tables}

theorem Shape.max_columns {rows : Array (Array StateId)} {kinds : Array TokenKind}
    (h : Shape rows kinds) : max (columns rows) Symbol.firstFree = columns rows :=
  Nat.max_eq_left h.three_le_columns

theorem ofParts_of_ofParts {alphabet : Alphabet} {rows : Array (Array StateId)}
    {kinds : Array TokenKind} {lexemes : Std.ExtTreeMap String StateId}
    (made : ofParts alphabet rows kinds lexemes = .ok t) :
    ofParts t.alphabet t.rows t.kinds t.lexemes = .ok t := by
  obtain ⟨clear, rfl⟩ := ofParts_eq_ok_iff.mp made
  obtain ⟨shape, -, symbols, index⟩ := defect?_eq_none_iff.mp clear
  refine ofParts_eq_ok_iff.mpr ⟨defect?_eq_none_iff.mpr ⟨shape, ?_, symbols, index⟩, rfl⟩
  exact Nat.le_of_eq shape.max_columns

namespace Admitted

theorem ofParts_self (h : t.Admitted) : ofParts t.alphabet t.rows t.kinds t.lexemes = .ok t := by
  obtain ⟨ds, rfl⟩ | ⟨alphabet, rows, kinds, lexemes, made⟩ := h
  · exact RuleSet.ofParts_compile ds
  · exact ofParts_of_ofParts made

theorem sound (h : t.Admitted) : t.Sound := .of_ofParts h.ofParts_self

/-- The alphabet keeps nothing but the symbols: the rows say how many columns there are. -/
theorem alphabet_eq (h : t.Admitted) : t.alphabet = ⟨t.alphabet.symbols, columns t.rows, ∅⟩ := by
  have same := congrArg Tables.alphabet (ofParts_eq_ok_iff.mp h.ofParts_self).2
  rwa [h.sound.max_columns] at same

theorem eq_iff_sameContent (ht : t.Admitted) (hu : u.Admitted) : t = u ↔ t.SameContent u := by
  constructor
  · rintro rfl
    exact ⟨rfl, rfl, rfl, fun _ => rfl, fun _ => rfl⟩
  · intro same
    have symbols : t.alphabet.symbols = u.alphabet.symbols :=
      Std.ExtTreeMap.ext_getElem? fun {c} => same.symbols c
    have lexemes : t.lexemes = u.lexemes := Std.ExtTreeMap.ext_getElem? fun {text} =>
      same.lexemes text
    have alphabet : t.alphabet = u.alphabet := by
      rw [ht.alphabet_eq, hu.alphabet_eq, symbols, same.rows]
    cases t
    cases u
    cases alphabet
    cases same.rows
    cases same.kinds
    cases lexemes
    rfl

end Admitted

section Maps

variable {α β : Type} [Ord α] [Std.TransOrd α] [Std.LawfulEqOrd α] [BEq α] [LawfulBEq α]

/-- The pairs of a map may be entered in any order. -/
theorem ofList_of_perm {m : Std.ExtTreeMap α β} {pairs : List (α × β)}
    (perm : pairs.Perm m.toList) : Std.ExtTreeMap.ofList pairs = m := by
  have distinct : pairs.Pairwise fun a b => ¬ compare a.1 b.1 = .eq :=
    (perm.pairwise_iff fun apart same => apart (Std.OrientedCmp.eq_symm same)).mpr
      m.distinct_keys_toList
  refine Std.ExtTreeMap.ext_getElem? fun {k} => Option.ext fun v => ?_
  rw [getElem?_ofList_eq_some_iff distinct, perm.mem_iff,
    Std.ExtTreeMap.mem_toList_iff_getElem?_eq_some]

end Maps

/-- Tables are put together again from their characters and exact rules in any order. -/
theorem Admitted.ofParts_perm (h : t.Admitted) {pairs : List (Char × Symbol)}
    {lexemes : List (String × StateId)} (chars : pairs.Perm t.alphabet.pairs)
    (rules : lexemes.Perm t.lexemes.toList) :
    ofParts (.ofPairs pairs t.width) t.rows t.kinds (Std.ExtTreeMap.ofList lexemes) = .ok t := by
  have alphabet : Alphabet.ofPairs pairs t.width = t.alphabet := by
    rw [Alphabet.ofPairs, ofList_of_perm chars, h.sound.width_eq, h.sound.max_columns]
    exact h.alphabet_eq.symm
  rw [alphabet, ofList_of_perm rules]
  exact h.ofParts_self

theorem width_parts (t : Tables) : t.parts.width = columns t.rows := by
  obtain ⟨alphabet, ⟨rows⟩, kinds, lexemes⟩ := t
  cases rows <;> rfl

/-- Tables are put together again from their stored parts. -/
theorem Admitted.assemble_parts (h : t.Admitted) : t.parts.assemble = .ok t := by
  have rows : (t.parts.rows.map List.toArray).toArray = t.rows := by
    simp [parts, Function.comp_def]
  have kinds : t.parts.kinds.toArray = t.kinds := Array.toArray_toList
  rw [TableParts.assemble, width_parts, ← h.sound.width_eq, rows, kinds]
  exact h.ofParts_perm (.refl _) (.refl _)

end Tables

/-- Parts whose symbols and states are 32-bit words. -/
structure TableParts.WordSized (p : TableParts) : Prop where
  symbols : ∀ pair ∈ p.pairs, pair.2 < UInt32.size
  targets : ∀ row ∈ p.rows, ∀ target ∈ row, target < UInt32.size
  lexemeStates : ∀ entry ∈ p.lexemes, entry.2 < UInt32.size

/-- No number in tables is greater than the last state or column. -/
theorem Tables.Admitted.wordSized {t : Tables} (h : t.Admitted)
    (states : t.stateCount ≤ UInt32.size) (columns : t.width ≤ UInt32.size) :
    t.parts.WordSized where
  symbols := by
    rintro ⟨c, s⟩ mem
    have found := Std.ExtTreeMap.mem_toList_iff_getElem?_eq_some.mp mem
    exact Nat.lt_of_lt_of_le (h.sound.symbol_lt found) columns
  targets := by
    intro row mem target within
    obtain ⟨cells, listed, rfl⟩ := List.mem_map.mp mem
    obtain ⟨state, inside, rfl⟩ := Array.mem_iff_getElem.mp (Array.mem_toList_iff.mp listed)
    have found : t.rows[state]? = some t.rows[state] := Array.getElem?_eq_getElem inside
    have small : target < t.rows.size := by
      refine (Tables.forall_mem_row_iff (P := (· < t.rows.size)) found).mpr ?_ target
        (Array.mem_toList_iff.mp within)
      intro s column
      exact h.sound.cell_lt inside (h.sound.row_size found ▸ column)
    exact Nat.lt_of_lt_of_le small (h.sound.kinds_size ▸ states)
  lexemeStates := by
    rintro ⟨text, state⟩ mem
    have found := Std.ExtTreeMap.mem_toList_iff_getElem?_eq_some.mp mem
    have clear := (Tables.ofParts_eq_ok_iff.mp h.ofParts_self).1
    have ends := (Tables.defect?_eq_none_iff.mp clear).2.2.2 text state found
    obtain ⟨kind, held, -⟩ := (Option.any_eq_true _ _).mp ends
    have inside : state < t.kinds.size := (Array.getElem?_eq_some_iff.mp held).1
    exact Nat.lt_of_lt_of_le inside states

end TableLexer
