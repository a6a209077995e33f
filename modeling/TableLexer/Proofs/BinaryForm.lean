import TableLexer.Proofs.StoredParts
import TableLexer.Proofs.Utf8
import TableLexer.Scan.Cursor

/-!
# Reading the binary form

A decoder reads a front of its input if it gives the same value and leaves the rest, whatever the
rest is. Decoders that run one after another read fronts that follow each other, so what is said
of words, characters and texts adds up to whole tables. The check of the room for the rows and the
check of the end look at all that is left; they alone stand outside this rule.
-/

namespace TableLexer.Binary

/-! ## Numbers -/

theorem length_littleEndian (count n : Nat) : (littleEndian count n).length = count := by
  induction count generalizing n with
  | zero => rfl
  | succ count ih => rw [littleEndian, List.length_cons, ih]

theorem ofLittleEndian_littleEndian {count n : Nat} (fits : n < 256 ^ count) :
    ofLittleEndian (littleEndian count n) = n := by
  induction count generalizing n with
  | zero =>
      rw [Nat.pow_zero] at fits
      exact (Nat.lt_one_iff.mp fits).symm
  | succ count ih =>
      have rest : n / 256 < 256 ^ count := by
        rw [Nat.pow_succ] at fits
        exact Nat.div_lt_of_lt_mul (Nat.mul_comm _ 256 ▸ fits)
      rw [littleEndian, ofLittleEndian, ih rest, UInt8.toNat_ofNat']
      omega

@[simp] theorem length_word (n : Nat) : (word n).length = 4 := length_littleEndian 4 n

theorem ofLittleEndian_word {n : Nat} (fits : n < UInt32.size) : ofLittleEndian (word n) = n :=
  ofLittleEndian_littleEndian fits

/-! ## Decoders -/

theorem Decoder.run_bind_ok {α β : Type} {d : Decoder α} {e : α → Decoder β}
    {bytes rest : List UInt8} {x : α} (first : d.run bytes = .ok (x, rest)) :
    (d >>= e).run bytes = (e x).run rest := by
  rw [StateT.run_bind, first]
  rfl

/-- On any input with the given front, the decoder gives the value and leaves what follows. -/
def Decoder.Reads {α : Type} (d : Decoder α) (front : List UInt8) (x : α) : Prop :=
  ∀ rest, d.run (front ++ rest) = .ok (x, rest)

namespace Decoder.Reads

variable {α β : Type} {d : Decoder α} {e : α → Decoder β} {front back : List UInt8} {x : α} {y : β}

theorem pure (x : α) : Reads (Pure.pure x : Decoder α) [] x := fun _ => rfl

theorem bind (first : d.Reads front x) (second : (e x).Reads back y) :
    Reads (d >>= e) (front ++ back) y := by
  intro rest
  rw [StateT.run_bind, List.append_assoc, first]
  exact second rest

/-- After the front, the reading goes on with the rest. -/
theorem run_bind (first : d.Reads front x) (rest : List UInt8) :
    (d >>= e).run (front ++ rest) = (e x).run rest := run_bind_ok (first rest)

theorem run_bind_nil (first : d.Reads [] x) (rest : List UInt8) :
    (d >>= e).run rest = (e x).run rest := first.run_bind rest

/-- A value that is computed from one that was read. -/
theorem map (first : d.Reads front x) {f : α → β} (same : f x = y) :
    Reads (d >>= fun x => Pure.pure (f x)) front y := by
  rw [← List.append_nil front]
  exact first.bind (same ▸ pure _)

/-- A computation that reads nothing. -/
theorem lift {r : Except Error α} (done : r = .ok x) : Reads (liftM r) [] x := by
  intro rest
  rw [done]
  rfl

end Decoder.Reads

open Decoder (Reads)

theorem take_reads {count : Nat} {front : List UInt8} (length : front.length = count)
    (part : Section) : Reads (take count part) front front := by
  subst length
  intro rest
  show take _ _ _ = _
  simp only [take, List.take_left, List.drop_left, if_true]

theorem takeWord_reads {n : Nat} (fits : n < UInt32.size) (part : Section) :
    Reads (takeWord part) (word n) n :=
  (take_reads (length_word n) part).map (ofLittleEndian_word fits)

theorem charOf_toNat (c : Char) : charOf c.toNat = .ok c := by
  rw [charOf, Char.ofNat_toNat]
  exact if_pos rfl

theorem takePair_reads (c : Char) {s : Symbol} (fits : s < UInt32.size) :
    Reads takePair (word c.toNat ++ word s) (c, s) := by
  have code : c.toNat < UInt32.size := Nat.lt_trans (Text.Utf8.toNat_lt c) (by decide)
  have symbol : Reads (takeWord .alphabet >>= fun s => pure (c, s)) (word s) (c, s) :=
    (takeWord_reads fits .alphabet).map rfl
  exact (takeWord_reads code .alphabet).bind ((Decoder.Reads.lift (charOf_toNat c)).bind symbol)

theorem takeLexeme_reads {text : String} {state : StateId}
    (length : (Text.Utf8.ofString text).length < UInt32.size) (fits : state < UInt32.size) :
    Reads takeLexeme (lengthed text ++ word state) (text, state) := by
  have last : Reads (takeWord .lexemeState >>= fun s => pure (text, s)) (word state)
      (text, state) := (takeWord_reads fits .lexemeState).map rfl
  rw [lengthed, List.append_assoc]
  refine (takeWord_reads length .lexemeLength).bind ((take_reads rfl .lexeme).bind ?_)
  rw [Text.Utf8.decode?_ofString]
  exact last

/-- A list is read item by item. -/
theorem times_reads {α : Type} {d : Decoder α} {form : α → List UInt8} {xs : List α}
    (each : ∀ x ∈ xs, Reads d (form x) x) : Reads (times xs.length d) (xs.flatMap form) xs := by
  induction xs with
  | nil => exact .pure []
  | cons x xs ih =>
      have others := ih fun y mem => each y (List.mem_cons_of_mem x mem)
      rw [List.flatMap_cons, List.length_cons, times]
      exact (each x List.mem_cons_self).bind (others.map rfl)

theorem kinds_reads (kinds : List TokenKind) :
    Reads ((kinds.map fun kind => UInt8.ofNat kind.code).mapM fun byte => liftM (kindOf byte))
      [] kinds := by
  induction kinds with
  | nil => exact .pure []
  | cons kind kinds ih =>
      have byte : (UInt8.ofNat kind.code).toNat = kind.code := by cases kind <;> rfl
      have code : kindOf (UInt8.ofNat kind.code) = .ok kind := by
        rw [kindOf, byte, TokenKind.ofCode?_code]
      rw [List.map_cons, List.mapM_cons]
      exact (Decoder.Reads.lift code).bind (ih.map rfl)

theorem checkRoom_run {states width : Nat} {bytes : List UInt8}
    (room : 4 * (states * width) ≤ bytes.length) :
    (checkRoom states width).run bytes = .ok ((), bytes) := if_pos room

end TableLexer.Binary

namespace TableLexer

/-- Parts of which every number, and every number of items, is a 32-bit word. -/
structure TableParts.Encodable (p : TableParts) : Prop extends p.WordSized where
  states : p.kinds.length < UInt32.size
  columns : p.width < UInt32.size
  chars : p.pairs.length < UInt32.size
  lexemeCount : p.lexemes.length < UInt32.size
  texts : ∀ entry ∈ p.lexemes, (Text.Utf8.ofString entry.1).length < UInt32.size
  rowCount : p.rows.length = p.kinds.length
  rowLength : ∀ row ∈ p.rows, row.length = p.width

namespace TableParts.Encodable

open Binary Binary.Decoder

variable {p : TableParts}

theorem pairs_reads (h : p.Encodable) : Reads (times p.pairs.length takePair)
    (p.pairs.flatMap fun (c, s) => word c.toNat ++ word s) p.pairs :=
  times_reads fun pair mem => takePair_reads pair.1 (h.symbols pair mem)

theorem rows_reads (h : p.Encodable) :
    Reads (times p.kinds.length (times p.width (takeWord .transitions)))
      (p.rows.flatMap (·.flatMap word)) p.rows := by
  rw [← h.rowCount]
  refine times_reads fun row mem => ?_
  rw [← h.rowLength row mem]
  exact times_reads fun target within => takeWord_reads (h.targets row mem target within) _

theorem lexemes_reads (h : p.Encodable) : Reads (times p.lexemes.length takeLexeme)
    (p.lexemes.flatMap fun (text, s) => lengthed text ++ word s) p.lexemes :=
  times_reads fun entry mem => takeLexeme_reads (h.texts entry mem) (h.lexemeStates entry mem)

theorem length_rows (h : p.Encodable) :
    (p.rows.flatMap (·.flatMap word)).length = 4 * (p.kinds.length * p.width) := by
  have each : ∀ row ∈ p.rows, (row.flatMap word).length = 4 * p.width := by
    intro row mem
    rw [List.length_flatMap, ← h.rowLength row mem]
    simp [Nat.mul_comm]
  rw [List.length_flatMap, List.map_congr_left each, List.map_const', List.sum_replicate_nat,
    h.rowCount, Nat.mul_left_comm]

/-- Parts are read from their binary form as they were, up to the check of the end. -/
theorem takeParts_run (h : p.Encodable) (more : List UInt8) :
    takeParts.run (encode p ++ more) = (checkEnd.run more).map fun left => (p, left.2) := by
  have mark : Reads (take 8 .magic) magic magic :=
    take_reads (show magic.length = 8 from rfl) .magic
  have codes : Reads (take p.kinds.length .kinds) _ _ :=
    take_reads (List.length_map fun kind => UInt8.ofNat kind.code) .kinds
  unfold takeParts encode
  simp only [List.append_assoc]
  rw [mark.run_bind, if_neg (not_not_intro rfl), (takeWord_reads h.states _).run_bind,
    (takeWord_reads h.columns _).run_bind, (takeWord_reads h.chars _).run_bind,
    (takeWord_reads h.lexemeCount _).run_bind, run_bind_ok (checkRoom_run ?room),
    h.pairs_reads.run_bind, codes.run_bind, (kinds_reads p.kinds).run_bind_nil,
    h.rows_reads.run_bind, h.lexemes_reads.run_bind]
  case room =>
    rw [← h.length_rows]
    simp only [List.length_append]
    omega
  rw [StateT.run_bind]
  cases checkEnd.run more <;> rfl

theorem decode_encode (h : p.Encodable) : decode (encode p) = .ok p := by
  have done := h.takeParts_run []
  rw [List.append_nil] at done
  rw [decode, done]
  rfl

/-- Bytes behind the binary form are counted. -/
theorem decode_encode_append (h : p.Encodable) {more : List UInt8} (nonempty : more ≠ []) :
    decode (encode p ++ more) = .error (.trailing more.length) := by
  have trailing : checkEnd.run more = .error (.trailing more.length) := if_neg nonempty
  rw [decode, h.takeParts_run, trailing]
  rfl

end TableParts.Encodable

/-- Tables of which every count is a 32-bit word. -/
structure Tables.CountsFit (t : Tables) : Prop where
  states : t.stateCount < UInt32.size
  columns : t.width < UInt32.size
  chars : t.alphabet.charCount < UInt32.size
  lexemeCount : t.lexemes.size < UInt32.size
  texts : ∀ {text : String} {state : StateId}, t.lexemeState? text = some state →
    (Text.Utf8.ofString text).length < UInt32.size

/-- The texts are checked one by one. -/
theorem Tables.countsFit_iff {t : Tables} : t.CountsFit ↔
    (t.stateCount < UInt32.size ∧ t.width < UInt32.size ∧ t.alphabet.charCount < UInt32.size ∧
      t.lexemes.size < UInt32.size) ∧
    ∀ entry ∈ t.lexemes.toList, (Text.Utf8.ofString entry.1).length < UInt32.size := by
  constructor
  · intro fit
    refine ⟨⟨fit.states, fit.columns, fit.chars, fit.lexemeCount⟩, ?_⟩
    rintro ⟨text, state⟩ mem
    exact fit.texts (Std.ExtTreeMap.mem_toList_iff_getElem?_eq_some.mp mem)
  · rintro ⟨⟨states, columns, chars, lexemeCount⟩, texts⟩
    refine ⟨states, columns, chars, lexemeCount, fun {text state} found => ?_⟩
    exact texts (text, state) (Std.ExtTreeMap.mem_toList_iff_getElem?_eq_some.mpr found)

instance (t : Tables) : Decidable t.CountsFit := decidable_of_iff' _ Tables.countsFit_iff

namespace Tables.Admitted

variable {t u : Tables}

theorem encodable (h : t.Admitted) (fit : t.CountsFit) : t.parts.Encodable where
  toWordSized := h.wordSized (Nat.le_of_lt fit.states) (Nat.le_of_lt fit.columns)
  states := fit.states
  columns := by
    rw [width_parts, ← h.sound.width_eq]
    exact fit.columns
  chars := by
    show t.alphabet.symbols.toList.length < _
    rw [Std.ExtTreeMap.length_toList]
    exact fit.chars
  lexemeCount := by
    show t.lexemes.toList.length < _
    rw [Std.ExtTreeMap.length_toList]
    exact fit.lexemeCount
  texts := by
    rintro ⟨text, state⟩ mem
    exact fit.texts (Std.ExtTreeMap.mem_toList_iff_getElem?_eq_some.mp mem)
  rowCount := by
    simp [parts, h.sound.kinds_size]
  rowLength := by
    intro row mem
    obtain ⟨cells, listed, rfl⟩ := List.mem_map.mp mem
    obtain ⟨state, inside, rfl⟩ := Array.mem_iff_getElem.mp (Array.mem_toList_iff.mp listed)
    rw [width_parts, Array.length_toList]
    exact h.sound.row_size (Array.getElem?_eq_getElem inside)

/-- Tables are read from their binary form as they were. -/
theorem ofBinary_toBinary (h : t.Admitted) (fit : t.CountsFit) :
    ofBinary t.toBinary = .ok t := by
  rw [ofBinary, toBinary, (h.encodable fit).decode_encode]
  show ofStoredParts t.parts = _
  rw [ofStoredParts, h.assemble_parts]
  rfl

end Tables.Admitted

/-- The binary form determines the tables and is determined by them: what is read from it are the
same tables, they scan alike, two tables share a form if and only if they have the same content,
and the order in which characters and exact rules were entered does not show. -/
theorem binary_form_canonical {t : Tables} (admitted : t.Admitted) (fit : t.CountsFit) :
    (∃ loaded, Tables.ofBinary t.toBinary = .ok loaded ∧ loaded = t ∧ loaded.SameContent t ∧
      ∀ (text : String) (skipSeparators : Bool),
        loaded.tokenize text skipSeparators = t.tokenize text skipSeparators) ∧
    (∀ u : Tables, u.Admitted → u.CountsFit →
      (t.toBinary = u.toBinary ↔ t = u) ∧ (t = u ↔ t.SameContent u)) ∧
    ∀ (pairs : List (Char × Symbol)) (lexemes : List (String × StateId)),
      pairs.Perm t.alphabet.pairs → lexemes.Perm t.lexemes.toList →
      (Tables.ofParts (.ofPairs pairs t.width) t.rows t.kinds (Std.ExtTreeMap.ofList lexemes)).map
        Tables.toBinary = .ok t.toBinary := by
  refine ⟨⟨t, admitted.ofBinary_toBinary fit, rfl, ?_, fun _ _ => rfl⟩, ?_, ?_⟩
  · exact (admitted.eq_iff_sameContent admitted).mp rfl
  · intro u admitted' fit'
    refine ⟨⟨fun same => ?_, congrArg Tables.toBinary⟩, admitted.eq_iff_sameContent admitted'⟩
    have loaded := admitted.ofBinary_toBinary fit
    rw [same, admitted'.ofBinary_toBinary fit'] at loaded
    exact (Except.ok.inj loaded).symm
  · intro pairs lexemes chars rules
    rw [admitted.ofParts_perm chars rules]
    rfl

/-- A keyword that is longer in bytes than in characters, with case variants. -/
theorem keyword_tables_binary_form :
    let t := (RuleSet.ofDeclarations [.keywords ["né"], .ignoreCase true]).compile
    t.Admitted ∧ t.CountsFit ∧ Tables.ofBinary t.toBinary = .ok t := by
  intro t
  have admitted : t.Admitted := .inl ⟨_, rfl⟩
  have index : t.lexemes.toList = [("né", 7)] := by decide +kernel
  have fit : t.CountsFit := by
    refine ⟨by decide +kernel, by decide +kernel, by decide +kernel, by decide +kernel, ?_⟩
    intro text state found
    have mem := Std.ExtTreeMap.mem_toList_iff_getElem?_eq_some.mpr found
    rw [index, List.mem_singleton] at mem
    cases mem
    decide +kernel
  obtain ⟨⟨loaded, read, rfl, -⟩, -⟩ := binary_form_canonical admitted fit
  exact ⟨admitted, fit, read⟩

end TableLexer
