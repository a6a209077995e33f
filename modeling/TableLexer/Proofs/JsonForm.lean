import TableLexer.Proofs.JsonText
import TableLexer.Proofs.StoredParts
import TableLexer.Scan.Cursor

/-!
# Reading the JSON form

The record of tables is made of values that can be written, and its fields are read back one list
at a time. So tables survive being stored as JSON in either layout, whatever characters their rules
are made of.
-/

namespace TableLexer

namespace Json

variable {α β : Type}

/-- A list is read back if its items are. -/
theorem list?_array_map {item? : Json → Option α} {form : α → Json} {xs : List α}
    (each : ∀ x ∈ xs, item? (form x) = some x) : list? item? (array (xs.map form)) = some xs := by
  show (xs.map form).mapM item? = some xs
  induction xs with
  | nil => rfl
  | cons x xs ih =>
      rw [List.map_cons, List.mapM_cons, each x List.mem_cons_self,
        ih fun y mem => each y (List.mem_cons_of_mem x mem)]
      rfl

theorem word?_number {n : Nat} (fits : n < UInt32.size) : word? (number n) = some n := if_pos fits

theorem char?_singleton (c : Char) : char? (string (.singleton c)) = some c := by
  simp [char?, text?]

theorem pair?_array {first? : Json → Option α} {second? : Json → Option β} {v w : Json} {a : α}
    {b : β} (first : first? v = some a) (second : second? w = some b) :
    pair? first? second? (array [v, w]) = some (a, b) := by
  rw [pair?, first, second]
  rfl

theorem usable_array_map {form : α → Json} {xs : List α} (each : ∀ x, Usable (form x)) :
    Usable (array (xs.map form)) := by
  apply Usable.array
  intro v mem
  obtain ⟨x, -, rfl⟩ := List.mem_map.mp mem
  exact each x

theorem usable_pair {v w : Json} (first : Usable v) (second : Usable w) :
    Usable (array [v, w]) := by
  apply Usable.array
  intro x mem
  obtain rfl | mem := List.mem_cons.mp mem
  · exact first
  · exact List.mem_singleton.mp mem ▸ second

end Json

namespace TableParts

variable {p : TableParts}

open Json (Usable)

theorem usable_toJson (p : TableParts) : Usable p.toJson := by
  apply Usable.object
  intro m mem
  simp only [List.mem_cons, List.not_mem_nil, or_false] at mem
  obtain rfl | rfl | rfl | rfl := mem
  · exact Json.usable_array_map fun pair => Json.usable_pair (.string _) (.number _)
  · exact Json.usable_array_map fun kind => .string _
  · exact Json.usable_array_map fun row => Json.usable_array_map fun target => .number _
  · exact Json.usable_array_map fun entry => Json.usable_pair (.string _) (.number _)

/-- The fields of the record are found by their names. -/
theorem fields?_toJson (p : TableParts) :
    p.toJson.fields? ["alphabet", "token_kinds", "transitions", "lexemes"] true =
      some [some (.array (p.pairs.map fun (c, s) => .array [.string (.singleton c), .number s])),
        some (.array (p.kinds.map fun kind => .string kind.name)),
        some (.array (p.rows.map fun row => .array (row.map .number))),
        some (.array (p.lexemes.map fun (text, s) => .array [.string text, .number s]))] := by
  rfl

/-- Parts of 32-bit words are read back from their record. -/
theorem ofJson?_toJson (h : p.WordSized) : ofJson? p.toJson = some p := by
  have pairs := Json.list?_array_map fun pair mem =>
    Json.pair?_array (Json.char?_singleton pair.1) (Json.word?_number (h.symbols pair mem))
  have kinds : Json.list? (fun kind => kind.text?.bind TokenKind.ofName?)
      (.array (p.kinds.map fun kind => .string kind.name)) = some p.kinds :=
    Json.list?_array_map fun kind _ => TokenKind.ofName?_name kind
  have rows := Json.list?_array_map fun row mem => Json.list?_array_map fun target within =>
    Json.word?_number (h.targets row mem target within)
  have lexemes := Json.list?_array_map fun entry mem =>
    Json.pair?_array (show Json.text? (.string entry.1) = some entry.1 from rfl)
      (Json.word?_number (h.lexemeStates entry mem))
  rw [ofJson?, fields?_toJson, Option.bind_eq_bind, Option.bind_some]
  simp only [pairs, kinds, rows, lexemes, Option.bind_eq_bind, Option.bind_some]
  rfl

end TableParts

namespace Tables

variable {t : Tables}

/-- Tables are read from their JSON form as they were, in either layout. -/
theorem Admitted.ofJson_write (h : t.Admitted) (words : t.parts.WordSized) (layout : Option Nat) :
    ofJson (Text.Utf8.encode (t.parts.toJson.write layout)) = .ok t := by
  rw [ofJson, t.parts.usable_toJson.read?_write, Option.bind_some, TableParts.ofJson?_toJson words]
  show ofStoredParts t.parts = _
  rw [ofStoredParts, h.assemble_parts]
  rfl

end Tables

/-- Tables whose symbols and states are 32-bit words survive being stored as JSON, indented or on
one line: the same tables are read, and they scan alike. -/
theorem json_form_round_trip {t : Tables} (admitted : t.Admitted) (words : t.parts.WordSized) :
    ∀ stored ∈ [t.toPrettyJson, t.toCompactJson],
      ∃ loaded, Tables.ofJson (Text.Utf8.ofString stored) = .ok loaded ∧ loaded = t ∧
        loaded.SameContent t ∧
        ∀ (text : String) (skipSeparators : Bool),
          loaded.tokenize text skipSeparators = t.tokenize text skipSeparators := by
  have same := (admitted.eq_iff_sameContent admitted).mp rfl
  intro stored mem
  refine ⟨t, ?_, rfl, same, fun _ _ => rfl⟩
  obtain rfl | rfl : stored = t.toPrettyJson ∨ stored = t.toCompactJson := by simpa using mem
  · rw [Tables.toPrettyJson, Json.pretty, Text.Utf8.ofString, String.toList_ofList]
    exact admitted.ofJson_write words (some 0)
  · rw [Tables.toCompactJson, Json.compact, Text.Utf8.ofString, String.toList_ofList]
    exact admitted.ofJson_write words none

/-- Operators of a quotation mark, a backslash, a control character and a character beyond the
basic plane. -/
theorem escaped_tables_json_form :
    let t := (RuleSet.ofDeclarations [.operators ["\"", "\\", "\x01", "😀"]]).compile
    t.Admitted ∧ t.parts.WordSized ∧
      Tables.ofJson (Text.Utf8.ofString t.toPrettyJson) = .ok t ∧
      Tables.ofJson (Text.Utf8.ofString t.toCompactJson) = .ok t := by
  intro t
  have admitted : t.Admitted := .inl ⟨_, rfl⟩
  have words : t.parts.WordSized := admitted.wordSized (by decide +kernel) (by decide +kernel)
  have back := json_form_round_trip admitted words
  obtain ⟨_, pretty, rfl, -⟩ := back _ List.mem_cons_self
  obtain ⟨_, compact, rfl, -⟩ := back _ (List.mem_cons_of_mem _ List.mem_cons_self)
  exact ⟨admitted, words, pretty, compact⟩

end TableLexer
