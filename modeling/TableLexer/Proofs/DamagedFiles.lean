import TableLexer.Proofs.BinaryForm

/-!
# Damaged binary files

What a decoder takes from its input is the form of the value that it gives. This is the converse of
reading, and it holds of words, characters, texts and lists of them, so of whole files. A file that
is accepted is therefore the binary form of its parts. The counts in its header and its texts say
how long it is. More bytes behind it are noticed as trailing, and so no front of it is accepted
either: the file would be more than its front.
-/

namespace TableLexer.Binary

/-! ## Numbers -/

theorem ofLittleEndian_lt (bytes : List UInt8) : ofLittleEndian bytes < 256 ^ bytes.length := by
  induction bytes with
  | nil => exact Nat.one_pos
  | cons b bytes ih =>
      have digit : b.toNat < 256 := b.toNat_lt
      rw [ofLittleEndian, List.length_cons, Nat.pow_succ]
      omega

theorem littleEndian_ofLittleEndian (bytes : List UInt8) :
    littleEndian bytes.length (ofLittleEndian bytes) = bytes := by
  induction bytes with
  | nil => rfl
  | cons b bytes ih =>
      have digit : b.toNat < 256 := b.toNat_lt
      have low : (b.toNat + 256 * ofLittleEndian bytes) % 256 = b.toNat := by omega
      have high : (b.toNat + 256 * ofLittleEndian bytes) / 256 = ofLittleEndian bytes := by omega
      rw [ofLittleEndian, List.length_cons, littleEndian, low, high, ih, UInt8.ofNat_toNat]

/-- A word is spelled by its own four bytes only. -/
theorem word_ofLittleEndian {bytes : List UInt8} (length : bytes.length = 4) :
    word (ofLittleEndian bytes) = bytes := by
  rw [word, ← length, littleEndian_ofLittleEndian]

/-! ## Decoders -/

namespace Decoder

variable {α β : Type} {d : Decoder α} {e : α → Decoder β} {bytes rest : List UInt8}
variable {x x' : α} {y : β}

theorem run_bind_eq_ok_iff : (d >>= e).run bytes = .ok (y, rest) ↔
    ∃ x mid, d.run bytes = .ok (x, mid) ∧ (e x).run mid = .ok (y, rest) := by
  constructor
  · intro whole
    rw [StateT.run_bind] at whole
    cases first : d.run bytes with
    | error fault =>
        rw [first] at whole
        cases whole
    | ok read =>
        rw [first] at whole
        exact ⟨read.1, read.2, rfl, whole⟩
  · rintro ⟨x, mid, first, second⟩
    rw [run_bind_ok first, second]

theorem run_pure_eq_ok_iff :
    (pure x : Decoder α).run bytes = .ok (x', rest) ↔ x = x' ∧ bytes = rest := by
  show Except.ok (x, bytes) = .ok (x', rest) ↔ _
  rw [Except.ok.injEq, Prod.mk.injEq]

theorem run_liftM_eq_ok_iff {r : Except Error α} :
    (liftM r : Decoder α).run bytes = .ok (x, rest) ↔ r = .ok x ∧ bytes = rest := by
  cases r with
  | error fault =>
      constructor
      · intro read
        cases read
      · rintro ⟨read, -⟩
        cases read
  | ok x' =>
      rw [Except.ok.injEq]
      exact run_pure_eq_ok_iff

/-- Any value that the decoder gives is a good one, and was read from its form. -/
def AcceptsOnly (d : Decoder α) (form : α → List UInt8) (good : α → Prop) : Prop :=
  ∀ {bytes rest : List UInt8} {x : α}, d.run bytes = .ok (x, rest) →
    bytes = form x ++ rest ∧ good x

end Decoder

open Decoder

theorem take_acceptsOnly (count : Nat) (part : Section) :
    AcceptsOnly (take count part) id fun bytes => bytes.length = count := by
  intro bytes rest front read
  replace read : take count part bytes = .ok (front, rest) := read
  rw [take] at read
  split at read
  · next enough =>
      cases read
      exact ⟨(List.take_append_drop count bytes).symm, enough⟩
  · cases read

theorem takeWord_acceptsOnly (part : Section) :
    AcceptsOnly (takeWord part) word fun n => n < UInt32.size := by
  intro bytes rest n read
  obtain ⟨front, mid, taken, value⟩ := run_bind_eq_ok_iff.mp read
  obtain ⟨rfl, rfl⟩ := run_pure_eq_ok_iff.mp value
  obtain ⟨rfl, length⟩ := take_acceptsOnly 4 part taken
  refine ⟨?_, ?_⟩
  · rw [word_ofLittleEndian length]
    rfl
  · have small := ofLittleEndian_lt front
    rwa [length] at small

theorem toNat_of_charOf {code : Nat} {c : Char} (read : charOf code = .ok c) : c.toNat = code := by
  rw [charOf] at read
  split at read
  · next same =>
      cases read
      exact same
  · cases read

theorem takePair_acceptsOnly : AcceptsOnly takePair (fun (c, s) => word c.toNat ++ word s)
    fun pair => pair.2 < UInt32.size := by
  intro bytes rest pair read
  obtain ⟨code, b₁, readCode, read⟩ := run_bind_eq_ok_iff.mp read
  obtain ⟨c, b₂, valid, read⟩ := run_bind_eq_ok_iff.mp read
  obtain ⟨s, b₃, readSymbol, value⟩ := run_bind_eq_ok_iff.mp read
  obtain ⟨rfl, rfl⟩ := run_pure_eq_ok_iff.mp value
  obtain ⟨char, rfl⟩ := run_liftM_eq_ok_iff.mp valid
  obtain ⟨rfl, fits⟩ := takeWord_acceptsOnly _ readSymbol
  obtain ⟨rfl, -⟩ := takeWord_acceptsOnly _ readCode
  refine ⟨?_, fits⟩
  rw [List.append_assoc, toNat_of_charOf char]

theorem takeLexeme_acceptsOnly :
    AcceptsOnly takeLexeme (fun (text, s) => lengthed text ++ word s) fun entry =>
      (Text.Utf8.ofString entry.1).length < UInt32.size ∧ entry.2 < UInt32.size := by
  intro bytes rest entry read
  obtain ⟨length, b₁, readLength, read⟩ := run_bind_eq_ok_iff.mp read
  obtain ⟨front, b₂, readText, read⟩ := run_bind_eq_ok_iff.mp read
  cases decoded : Text.Utf8.decode? front with
  | none =>
      rw [decoded] at read
      cases read
  | some text =>
      rw [decoded] at read
      obtain ⟨s, b₃, readState, value⟩ := run_bind_eq_ok_iff.mp read
      obtain ⟨rfl, rfl⟩ := run_pure_eq_ok_iff.mp value
      obtain ⟨rfl, fits⟩ := takeWord_acceptsOnly _ readState
      obtain ⟨rfl, rfl⟩ := take_acceptsOnly _ _ readText
      obtain ⟨rfl, small⟩ := takeWord_acceptsOnly _ readLength
      have spelled := Text.Utf8.ofString_of_decode? decoded
      subst spelled
      refine ⟨?_, small, fits⟩
      simp only [lengthed, List.append_assoc, id]

/-- A list is read from the forms of its items, one after another. -/
theorem times_acceptsOnly {α : Type} {d : Decoder α} {form : α → List UInt8} {good : α → Prop}
    (each : AcceptsOnly d form good) (count : Nat) :
    AcceptsOnly (times count d) (·.flatMap form) fun xs =>
      xs.length = count ∧ ∀ x ∈ xs, good x := by
  induction count with
  | zero =>
      intro bytes rest xs read
      obtain ⟨rfl, rfl⟩ := run_pure_eq_ok_iff.mp read
      exact ⟨rfl, rfl, fun x mem => nomatch mem⟩
  | succ count ih =>
      intro bytes rest xs read
      obtain ⟨x, b₁, first, read⟩ := run_bind_eq_ok_iff.mp read
      obtain ⟨others, b₂, later, value⟩ := run_bind_eq_ok_iff.mp read
      obtain ⟨rfl, rfl⟩ := run_pure_eq_ok_iff.mp value
      obtain ⟨rfl, length, rest⟩ := ih later
      obtain ⟨rfl, good⟩ := each first
      refine ⟨?_, congrArg (· + 1) length, List.forall_mem_cons.mpr ⟨good, rest⟩⟩
      show form x ++ (others.flatMap form ++ b₂) = (x :: others).flatMap form ++ b₂
      rw [List.flatMap_cons, List.append_assoc]

theorem code_of_kindOf {byte : UInt8} {kind : TokenKind} (read : kindOf byte = .ok kind) :
    UInt8.ofNat kind.code = byte := by
  rw [kindOf] at read
  split at read
  · next found =>
      cases read
      rw [TokenKind.code_of_ofCode? found, UInt8.ofNat_toNat]
  · cases read

theorem kinds_accepted {codes rest rest' : List UInt8} {kinds : List TokenKind}
    (read : ((codes.mapM fun byte => liftM (kindOf byte)) : Decoder (List TokenKind)).run rest =
      .ok (kinds, rest')) :
    (kinds.map fun kind => UInt8.ofNat kind.code) = codes ∧ rest = rest' := by
  induction codes generalizing kinds with
  | nil =>
      obtain ⟨rfl, rfl⟩ := run_pure_eq_ok_iff.mp read
      exact ⟨rfl, rfl⟩
  | cons byte codes ih =>
      rw [List.mapM_cons] at read
      obtain ⟨kind, b₁, first, read⟩ := run_bind_eq_ok_iff.mp read
      obtain ⟨others, b₂, later, value⟩ := run_bind_eq_ok_iff.mp read
      obtain ⟨rfl, rfl⟩ := run_pure_eq_ok_iff.mp value
      obtain ⟨known, rfl⟩ := run_liftM_eq_ok_iff.mp first
      obtain ⟨rfl, rfl⟩ := ih later
      exact ⟨congrArg (· :: _) (code_of_kindOf known), rfl⟩

theorem checkRoom_accepted {states width : Nat} {bytes rest : List UInt8} {u : Unit}
    (read : (checkRoom states width).run bytes = .ok (u, rest)) : bytes = rest := by
  replace read : checkRoom states width bytes = .ok (u, rest) := read
  rw [checkRoom] at read
  split at read
  · cases read
    rfl
  · cases read

theorem checkEnd_accepted {bytes rest : List UInt8} {u : Unit}
    (read : checkEnd.run bytes = .ok (u, rest)) : bytes = [] := by
  replace read : checkEnd bytes = .ok (u, rest) := read
  rw [checkEnd] at read
  split at read
  · next none => exact none
  · cases read

theorem run_of_decode {bytes : List UInt8} {p : TableParts} (read : decode bytes = .ok p) :
    ∃ rest, takeParts.run bytes = .ok (p, rest) := by
  rw [decode] at read
  cases whole : takeParts.run bytes with
  | error fault =>
      rw [whole] at read
      cases read
  | ok answer =>
      rw [whole] at read
      cases read
      exact ⟨answer.2, rfl⟩

end TableLexer.Binary

namespace TableLexer

open Binary Binary.Decoder

/-- Rows of one length have that width. -/
theorem TableParts.width_of_rows {p : TableParts} {width : Nat} (nonempty : p.rows ≠ [])
    (lengths : ∀ row ∈ p.rows, row.length = width) : p.width = width := by
  obtain ⟨row, rows, shape⟩ := List.exists_cons_of_ne_nil nonempty
  rw [TableParts.width, shape]
  exact lengths row (shape ▸ List.mem_cons_self)

/-- What is read as parts is their binary form. Without rows the width would be open. -/
theorem Binary.encodable_of_decode {bytes : List UInt8} {p : TableParts}
    (read : decode bytes = .ok p) (nonempty : p.rows ≠ []) : p.Encodable ∧ encode p = bytes := by
  obtain ⟨rest, read⟩ := run_of_decode read
  unfold takeParts at read
  obtain ⟨mark, b₁, readMark, read⟩ := run_bind_eq_ok_iff.mp read
  split at read
  · cases read
  next marked =>
    simp only [run_bind_eq_ok_iff, run_pure_eq_ok_iff] at read
    obtain ⟨states, b₂, readStates, width, b₃, readWidth, chars, b₄, readChars,
      lexemeCount, b₅, readCount, ⟨⟩, b₆, room, pairs, b₇, readPairs, codes, b₈, readCodes,
      kinds, b₉, known, rows, b₁₀, readRows, lexemes, b₁₁, readLexemes, ⟨⟩, b₁₂, ending,
      rfl, rfl⟩ := read
    -- The sections are put together again from the last one to the first.
    obtain rfl := checkEnd_accepted ending
    obtain ⟨rfl, rfl, entries⟩ := times_acceptsOnly takeLexeme_acceptsOnly _ readLexemes
    obtain ⟨rfl, rowCount, cells⟩ :=
      times_acceptsOnly (times_acceptsOnly (takeWord_acceptsOnly .transitions) width) _ readRows
    obtain ⟨rfl, rfl⟩ := kinds_accepted known
    obtain ⟨rfl, kindCount⟩ := take_acceptsOnly _ _ readCodes
    obtain ⟨rfl, rfl, symbols⟩ := times_acceptsOnly takePair_acceptsOnly _ readPairs
    obtain rfl := checkRoom_accepted room
    obtain ⟨rfl, countFits⟩ := takeWord_acceptsOnly _ readCount
    obtain ⟨rfl, charsFit⟩ := takeWord_acceptsOnly _ readChars
    obtain ⟨rfl, widthFits⟩ := takeWord_acceptsOnly _ readWidth
    obtain ⟨rfl, statesFit⟩ := takeWord_acceptsOnly _ readStates
    obtain ⟨rfl, -⟩ := take_acceptsOnly _ _ readMark
    rw [List.length_map] at kindCount
    subst kindCount
    have lengths : ∀ row ∈ rows, row.length = width := fun row mem => (cells row mem).1
    obtain rfl := TableParts.width_of_rows nonempty lengths
    refine ⟨⟨⟨symbols, fun row mem => (cells row mem).2, fun entry mem => (entries entry mem).2⟩,
      statesFit, widthFits, charsFit, countFits, fun entry mem => (entries entry mem).1,
      rowCount, lengths⟩, ?_⟩
    rw [encode, ← not_not.mp marked]
    simp only [List.append_assoc, List.append_nil, id]

/-! ## The length of a file -/

/-- The counts that stand in front of stored tables. -/
structure Binary.Header where
  states : Nat
  width : Nat
  chars : Nat
  lexemes : Nat
  deriving DecidableEq

/-- The counts behind the mark of the format, a word each. -/
def Binary.headerOf (bytes : List UInt8) : Header :=
  let count (i : Nat) := ofLittleEndian ((bytes.drop (8 + 4 * i)).take 4)
  ⟨count 0, count 1, count 2, count 3⟩

namespace TableParts.Encodable

variable {p : TableParts}

theorem headerOf_encode (h : p.Encodable) :
    headerOf (encode p) = ⟨p.kinds.length, p.width, p.pairs.length, p.lexemes.length⟩ := by
  have words : headerOf (encode p) = ⟨ofLittleEndian (word p.kinds.length),
      ofLittleEndian (word p.width), ofLittleEndian (word p.pairs.length),
      ofLittleEndian (word p.lexemes.length)⟩ := rfl
  rw [words, ofLittleEndian_word h.states, ofLittleEndian_word h.columns,
    ofLittleEndian_word h.chars, ofLittleEndian_word h.lexemeCount]

theorem length_encode (h : p.Encodable) : (encode p).length =
    24 + 8 * p.pairs.length + p.kinds.length + 4 * (p.kinds.length * p.width)
      + (p.lexemes.map fun entry => 8 + (Text.Utf8.ofString entry.1).length).sum := by
  have mark : magic.length = 8 := rfl
  have pairs : (p.pairs.flatMap fun (c, s) => word c.toNat ++ word s).length =
      8 * p.pairs.length := by
    simp [List.length_flatMap, Nat.mul_comm]
  have entry (text : String) (s : StateId) : (lengthed text ++ word s).length =
      8 + (Text.Utf8.ofString text).length := by
    simp [lengthed]
    omega
  have entries : (p.lexemes.flatMap fun (text, s) => lengthed text ++ word s).length =
      (p.lexemes.map fun entry => 8 + (Text.Utf8.ofString entry.1).length).sum := by
    rw [List.length_flatMap]
    exact congrArg List.sum (List.map_congr_left fun item _ => entry item.1 item.2)
  simp only [encode, List.length_append, List.length_map, length_word, mark, pairs, h.length_rows,
    entries]

end TableParts.Encodable

/-- Parts that make up tables have rows, at least for the states that every automaton has. -/
theorem TableParts.rows_ne_nil {p : TableParts} {t : Tables} (made : p.assemble = .ok t) :
    p.rows ≠ [] := by
  have clear := (Tables.ofParts_eq_ok_iff.mp made).1
  have six := (Tables.defect?_eq_none_iff.mp clear).1.six_le_size
  intro none
  simp [none] at six

/-- A file that is accepted is the binary form of the parts that are read from it. -/
theorem Tables.exists_parts_of_ofBinary {bytes : List UInt8} {t : Tables}
    (accepted : ofBinary bytes = .ok t) :
    ∃ p : TableParts, decode bytes = .ok p ∧ p.Encodable ∧ encode p = bytes := by
  rw [ofBinary] at accepted
  split at accepted
  · next p read =>
      rw [ofStoredParts] at accepted
      cases made : p.assemble with
      | error defect =>
          rw [made] at accepted
          cases accepted
      | ok u => exact ⟨p, read, encodable_of_decode read (TableParts.rows_ne_nil made)⟩
  · cases accepted

/-- The bytes behind an accepted file are counted as trailing. -/
theorem Tables.ofBinary_append {bytes more : List UInt8} {t : Tables}
    (accepted : ofBinary bytes = .ok t) (nonempty : more ≠ []) :
    ofBinary (bytes ++ more) = .error (.notBinary (.trailing more.length)) := by
  obtain ⟨p, -, encodable, rfl⟩ := exists_parts_of_ofBinary accepted
  rw [ofBinary, encodable.decode_encode_append nonempty]

/-- Damage to the length of a binary file is noticed. The counts in the header of a file that is
accepted and the texts of its exact rules make up its length, and neither a front of it nor the file
with more bytes behind it is accepted. -/
theorem damaged_lengths_are_noticed {bytes : List UInt8} {t : Tables}
    (accepted : Tables.ofBinary bytes = .ok t) :
    (∃ p : TableParts, decode bytes = .ok p ∧ encode p = bytes ∧
      p.lexemes.length = (headerOf bytes).lexemes ∧
      bytes.length = 24 + 8 * (headerOf bytes).chars + (headerOf bytes).states
        + 4 * ((headerOf bytes).states * (headerOf bytes).width)
        + (p.lexemes.map fun entry => 8 + (Text.Utf8.ofString entry.1).length).sum) ∧
    (∀ front : List UInt8, front <+: bytes → front ≠ bytes →
      ∃ e, Tables.ofBinary front = .error e) ∧
    ∀ more : List UInt8, more ≠ [] →
      Tables.ofBinary (bytes ++ more) = .error (.notBinary (.trailing more.length)) := by
  refine ⟨?_, fun front cut proper => ?_, fun more => Tables.ofBinary_append accepted⟩
  · obtain ⟨p, read, encodable, rfl⟩ := Tables.exists_parts_of_ofBinary accepted
    rw [encodable.headerOf_encode]
    exact ⟨p, read, rfl, rfl, encodable.length_encode⟩
  · -- If the front were accepted, then the file would be more than it.
    obtain ⟨more, rfl⟩ := cut
    cases answer : Tables.ofBinary front with
    | error e => exact ⟨e, rfl⟩
    | ok u =>
        have nonempty : more ≠ [] := by
          rintro rfl
          exact proper (List.append_nil front).symm
        rw [Tables.ofBinary_append answer nonempty] at accepted
        cases accepted

/-- Tables of one operator, without their last byte and with one more. -/
theorem operator_file_is_checked :
    let t := (RuleSet.ofDeclarations [.operators ["+"]]).compile
    let bytes := t.toBinary
    Tables.ofBinary bytes = .ok t ∧ headerOf bytes = ⟨7, 4, 1, 1⟩ ∧
      bytes.length = 24 + 8 * 1 + 7 + 4 * (7 * 4) + (8 + 1) ∧
      bytes.dropLast <+: bytes ∧ bytes.dropLast ≠ bytes ∧
      (∃ e, Tables.ofBinary bytes.dropLast = .error e) ∧
      Tables.ofBinary (bytes ++ [0]) = .error (.notBinary (.trailing 1)) := by
  intro t bytes
  have admitted : t.Admitted := .inl ⟨_, rfl⟩
  have fit : t.CountsFit := by decide +kernel
  have accepted : Tables.ofBinary bytes = .ok t := admitted.ofBinary_toBinary fit
  have cut : bytes.dropLast <+: bytes := List.dropLast_prefix bytes
  have proper : bytes.dropLast ≠ bytes := by decide +kernel
  obtain ⟨-, fronts, more⟩ := damaged_lengths_are_noticed accepted
  exact ⟨accepted, by decide +kernel, by decide +kernel, cut, proper, fronts _ cut proper,
    more [0] (List.cons_ne_nil 0 [])⟩

end TableLexer
