import TableLexer.CharSource.Bytes
import TableLexer.Proofs.AlikeSources
import TableLexer.Proofs.StoredParts
import TableLexer.Proofs.Utf8

/-!
# Where bytes are cut does not matter

A byte source reads a character from as many buffers as it takes. Every read is answered, and leaves
the bytes behind it, as if they came uncut; so sources of the same bytes are alike. Their
characters are those of the longest beginning of the bytes that is UTF-8, and behind it the reads
report the end of the stream or the malformed sequence. Over bytes that spell a text, a byte source
stands for the text itself.
-/

namespace TableLexer

open Text.Utf8

/-- Invalid data: a failure that is found in the bytes, not in what delivers them. -/
def ReadError.isMalformed : ReadError → Bool
  | invalidLead | invalidSequence | incompleteSequence => true
  | isDirectory | device _ => false

/-- The next character of bytes that are not cut, and the bytes behind it. -/
def readBytes : List UInt8 → Except ReadError (Option Char) × List UInt8
  | [] => (.ok none, [])
  | lead :: rest =>
    match sequenceLength? lead with
    | none => (.error .invalidLead, lead :: rest)
    | some n =>
      if rest.length < n - 1 then (.error .incompleteSequence, [])
      else
        match decodeChar? (lead :: rest.take (n - 1)) with
        | none => (.error .invalidSequence, rest.drop (n - 1))
        | some c => (.ok (some c), rest.drop (n - 1))

section ReadBytes

variable {bytes : List UInt8}

theorem readBytes_encodeChar (c : Char) (rest : List UInt8) :
    readBytes (encodeChar c ++ rest) = (.ok (some c), rest) := by
  obtain ⟨lead, more, spelled, length⟩ := exists_encodeChar c
  have decoded := decodeChar?_encodeChar c
  rw [spelled] at length decoded ⊢
  have enough : ¬ (more ++ rest).length < more.length := by
    rw [List.length_append]
    omega
  simp only [List.cons_append, readBytes, length, List.length_cons, Nat.add_sub_cancel,
    if_neg enough, List.take_left, List.drop_left, decoded]

theorem readBytes_encode (cs : List Char) :
    readBytes (encode cs) = (.ok cs.head?, encode cs.tail) := by
  cases cs with
  | nil => rfl
  | cons c cs => exact readBytes_encodeChar c (encode cs)

/-- Bytes that do not begin with a character are reported as malformed. -/
theorem begins_or_malformed (more : bytes ≠ []) :
    (∃ c rest, bytes = encodeChar c ++ rest) ∨
      ∃ e : ReadError, e.isMalformed = true ∧ (readBytes bytes).1 = .error e := by
  obtain ⟨lead, behind, rfl⟩ := List.exists_cons_of_ne_nil more
  cases length : sequenceLength? lead with
  | none =>
      right
      exact ⟨.invalidLead, rfl, by simp only [readBytes, length]⟩
  | some n =>
      by_cases short : behind.length < n - 1
      · right
        exact ⟨.incompleteSequence, rfl, by simp only [readBytes, length, if_pos short]⟩
      · cases decoded : decodeChar? (lead :: behind.take (n - 1)) with
        | none =>
            right
            exact ⟨.invalidSequence, rfl, by simp only [readBytes, length, if_neg short, decoded]⟩
        | some c =>
            left
            refine ⟨c, behind.drop (n - 1), ?_⟩
            rw [encodeChar_of_decodeChar? decoded, List.cons_append, List.take_append_drop]

/-- Bytes begin with one character at most. -/
theorem encodeChar_append_inj {c d : Char} {rest rest' : List UInt8}
    (h : encodeChar c ++ rest = encodeChar d ++ rest') : c = d ∧ rest = rest' := by
  have same := congrArg readBytes h
  rw [readBytes_encodeChar, readBytes_encodeChar] at same
  obtain ⟨answers, rests⟩ := Prod.mk.inj same
  exact ⟨Option.some.inj (Except.ok.inj answers), rests⟩

end ReadBytes

/-- Bytes are divided into a text and the rest behind it, which no longer text could begin with. -/
structure LongestText (bytes : List UInt8) (cs : List Char) (rest : List UInt8) : Prop where
  divided : bytes = encode cs ++ rest
  longest : ∀ ds, encode ds <+: bytes → ds <+: cs

namespace LongestText

variable {bytes rest : List UInt8} {cs : List Char}

/-- Where no further character begins. -/
theorem stop (stops : ∀ c behind, bytes ≠ encodeChar c ++ behind) : LongestText bytes [] bytes where
  divided := rfl
  longest ds begun := by
    cases ds with
    | nil => exact List.prefix_rfl
    | cons d ds =>
        obtain ⟨behind, whole⟩ := begun
        rw [encode_cons, List.append_assoc] at whole
        exact absurd whole.symm (stops d _)

/-- One character more in front. -/
theorem cons (h : LongestText bytes cs rest) (c : Char) :
    LongestText (encodeChar c ++ bytes) (c :: cs) rest where
  divided := by rw [h.divided, encode_cons, List.append_assoc]
  longest ds begun := by
    cases ds with
    | nil => exact List.nil_prefix
    | cons d ds =>
        obtain ⟨behind, whole⟩ := begun
        rw [encode_cons, List.append_assoc] at whole
        obtain ⟨rfl, following⟩ := encodeChar_append_inj whole
        exact List.cons_prefix_cons.mpr ⟨rfl, h.longest ds ⟨behind, following⟩⟩

/-- The longest text in the bytes of a text is the whole. -/
theorem eq_of_encode {ds : List Char} (h : LongestText (encode ds) cs rest) :
    cs = ds ∧ rest = [] := by
  obtain ⟨more, rfl⟩ := h.longest ds List.prefix_rfl
  have whole := h.divided
  rw [encode_append, List.append_assoc] at whole
  obtain ⟨nothing, rfl⟩ := List.append_eq_nil_iff.mp (List.self_eq_append_right.mp whole)
  have few := length_le_length_encode more
  rw [nothing] at few
  obtain rfl : more = [] := List.length_eq_zero_iff.mp (Nat.le_zero.mp few)
  exact ⟨List.append_nil ds, rfl⟩

end LongestText

/-- There is a longest text, and the bytes behind it are malformed. The induction is on the number
of bytes: each character takes some of them. -/
theorem exists_longestText (bytes : List UInt8) : ∃ cs rest, LongestText bytes cs rest ∧
    (rest ≠ [] → ∃ e : ReadError, e.isMalformed = true ∧ (readBytes rest).1 = .error e) := by
  induction size : bytes.length using Nat.strongRecOn generalizing bytes with
  | ind size ih =>
      by_cases none : bytes = []
      · subst none
        refine ⟨[], [], .stop fun c behind same => ?_, absurd rfl⟩
        exact encodeChar_ne_nil c (List.append_eq_nil_iff.mp same.symm).1
      · obtain ⟨c, behind, rfl⟩ | ⟨e, malformed, answer⟩ := begins_or_malformed none
        · have taken := List.length_pos_iff.mpr (encodeChar_ne_nil c)
          rw [List.length_append] at size
          obtain ⟨cs, rest, text, ends⟩ := ih behind.length (by omega) behind rfl
          exact ⟨c :: cs, rest, text.cons c, ends⟩
        · refine ⟨[], bytes, .stop fun c behind same => ?_, fun _ => ⟨e, malformed, answer⟩⟩
          rw [same, readBytes_encodeChar] at answer
          cases answer

namespace Piece

variable {pieces : List Piece} {bytes more : List UInt8} {b : UInt8} {n : Nat}

theorem drain_map_bytes (buffers : List (List UInt8)) :
    drain (buffers.map .bytes) = .ok buffers.flatten := by
  induction buffers with
  | nil => rfl
  | cons buffer buffers ih =>
      rw [List.map_cons, drain, ih, List.flatten_cons]
      rfl

theorem drain_bytes_eq_ok_iff {buffer : List UInt8} :
    drain (.bytes buffer :: pieces) = .ok bytes ↔
      ∃ more, drain pieces = .ok more ∧ bytes = buffer ++ more := by
  rw [drain]
  cases drain pieces with
  | error e => simp [Except.map]
  | ok more => simp [Except.map, eq_comm]

theorem firstByte?_of_drain_nil (h : drain pieces = .ok []) : firstByte? pieces = none := by
  induction pieces with
  | nil => rfl
  | cons piece pieces ih =>
      match piece with
      | .failure e => cases h
      | .bytes [] =>
          obtain ⟨more, rest, same⟩ := drain_bytes_eq_ok_iff.mp h
          obtain rfl : [] = more := same
          exact ih rest
      | .bytes (b :: buffer) =>
          obtain ⟨more, -, same⟩ := drain_bytes_eq_ok_iff.mp h
          cases same

theorem firstByte?_of_drain_cons (h : drain pieces = .ok (b :: more)) :
    ∃ rest, firstByte? pieces = some (.ok b, rest) ∧ drain rest = .ok more := by
  induction pieces with
  | nil => cases h
  | cons piece pieces ih =>
      match piece with
      | .failure e => cases h
      | .bytes [] =>
          obtain ⟨bytes, rest, same⟩ := drain_bytes_eq_ok_iff.mp h
          obtain rfl : b :: more = bytes := same
          exact ih rest
      | .bytes (first :: buffer) =>
          obtain ⟨bytes, rest, same⟩ := drain_bytes_eq_ok_iff.mp h
          obtain ⟨rfl, rfl⟩ := List.cons.inj same
          exact ⟨_, rfl, drain_bytes_eq_ok_iff.mpr ⟨bytes, rest, rfl⟩⟩

theorem takeBytes_of_drain (h : drain pieces = .ok bytes) (enough : n ≤ bytes.length) :
    ∃ rest, takeBytes n pieces = (.ok (bytes.take n), rest) ∧ drain rest = .ok (bytes.drop n) := by
  induction n generalizing pieces bytes with
  | zero => exact ⟨pieces, rfl, h⟩
  | succ n ih =>
      cases bytes with
      | nil => simp at enough
      | cons b more =>
          obtain ⟨rest, first, later⟩ := firstByte?_of_drain_cons h
          obtain ⟨rest', taken, last⟩ := ih later (Nat.le_of_succ_le_succ enough)
          refine ⟨rest', ?_, last⟩
          simp only [takeBytes, first, taken, List.take_succ_cons]

theorem takeBytes_of_drain_lt (h : drain pieces = .ok bytes) (short : bytes.length < n) :
    takeBytes n pieces = (.error .incompleteSequence, []) := by
  induction n generalizing pieces bytes with
  | zero => simp at short
  | succ n ih =>
      cases bytes with
      | nil => simp only [takeBytes, firstByte?_of_drain_nil h]
      | cons b more =>
          obtain ⟨rest, first, later⟩ := firstByte?_of_drain_cons h
          simp only [takeBytes, first, ih later (Nat.lt_of_succ_lt_succ short)]

/-- A character is read as if the bytes came uncut. -/
theorem readChar_of_drain (h : drain pieces = .ok bytes) :
    (readChar pieces).1 = (readBytes bytes).1 ∧
      drain (readChar pieces).2 = .ok (readBytes bytes).2 := by
  cases bytes with
  | nil =>
      simp only [readChar, firstByte?_of_drain_nil h]
      exact ⟨rfl, rfl⟩
  | cons lead more =>
      obtain ⟨rest, first, later⟩ := firstByte?_of_drain_cons h
      cases length : sequenceLength? lead with
      | none =>
          simp only [readChar, readBytes, first, length]
          exact ⟨trivial, h⟩
      | some n =>
          by_cases short : more.length < n - 1
          · simp only [readChar, readBytes, first, length, takeBytes_of_drain_lt later short,
              if_pos short]
            exact ⟨trivial, rfl⟩
          · obtain ⟨rest', taken, last⟩ := takeBytes_of_drain later (Nat.le_of_not_lt short)
            cases decoded : decodeChar? (lead :: more.take (n - 1)) with
            | none | some c =>
                simp only [readChar, readBytes, first, length, taken, if_neg short, decoded]
                exact ⟨trivial, last⟩

end Piece

/-- A source that delivers its bytes in these buffers and never fails. -/
def ByteSource.ofBuffers (buffers : List (List UInt8)) : ByteSource :=
  ofPieces (buffers.map .bytes)

/-- A source that is still open and has these bytes to deliver. -/
def ByteSource.Holds (source : ByteSource) (bytes : List UInt8) : Prop :=
  ∃ pieces, source.pieces = some pieces ∧ Piece.drain pieces = .ok bytes

namespace ByteSource.Holds

open CharSource

variable {source other : ByteSource} {bytes rest : List UInt8} {cs : List Char}

theorem ofBuffers (buffers : List (List UInt8)) :
    (ByteSource.ofBuffers buffers).Holds buffers.flatten :=
  ⟨_, rfl, Piece.drain_map_bytes buffers⟩

/-- The answer to a read, and what is left to deliver, are those of the bytes. -/
theorem read (h : source.Holds bytes) :
    (read source).1 = (readBytes bytes).1 ∧ (read source).2.Holds (readBytes bytes).2 := by
  obtain ⟨pieces⟩ := source
  obtain ⟨pieces, rfl, drained⟩ := h
  obtain ⟨answer, later⟩ := Piece.readChar_of_drain drained
  exact ⟨answer, _, rfl, later⟩

/-- Sources of the same bytes are alike. -/
theorem alike (h : source.Holds bytes) (h' : other.Holds bytes) : Alike source other := by
  refine .of_invariant (R := fun source other => ∃ bytes, source.Holds bytes ∧ other.Holds bytes)
    ?_ ?_ ⟨bytes, h, h'⟩
  · rintro source other ⟨bytes, h, h'⟩
    exact h.read.1.trans h'.read.1.symm
  · rintro source other ⟨bytes, h, h'⟩
    exact ⟨_, h.read.2, h'.read.2⟩

/-- A source of the bytes of a text is like the text. -/
theorem alike_text (h : source.Holds (encode cs)) : Alike source (TextSource.mk cs) := by
  refine .of_invariant (R := fun source text => source.Holds (encode text.rest)) ?_ ?_ h
  · intro source text h
    rw [h.read.1, readBytes_encode, Cursor.read_text]
  · intro source text h
    have later := h.read.2
    rw [readBytes_encode] at later
    rw [Cursor.read_text]
    exact later

/-- The characters at the front of the bytes are read one by one. -/
theorem after_encode (h : source.Holds (encode cs ++ rest)) :
    (after cs.length source).Holds rest := by
  induction cs generalizing source with
  | nil => exact h
  | cons c cs ih =>
      apply ih
      have later := h.read.2
      rwa [encode_cons, List.append_assoc, readBytes_encodeChar] at later

theorem answer_of_getElem? (h : source.Holds (encode cs ++ rest)) {i : Nat} {c : Char}
    (found : cs[i]? = some c) : answer source i = .ok (some c) := by
  obtain ⟨inside, rfl⟩ := List.getElem?_eq_some_iff.mp found
  have whole : encode cs ++ rest =
      encode (cs.take i) ++ (encodeChar cs[i] ++ (encode (cs.drop (i + 1)) ++ rest)) := by
    rw [← List.append_assoc (encodeChar _), ← encode_cons, ← List.drop_eq_getElem_cons inside,
      ← List.append_assoc, ← encode_append, List.take_append_drop]
  have reached := after_encode (whole ▸ h)
  rw [List.length_take_of_le (Nat.le_of_lt inside)] at reached
  rw [answer, reached.read.1, readBytes_encodeChar]

/-- Once there are no more bytes, every read reports the end. -/
theorem answer_nil (h : source.Holds []) (count : Nat) : answer source count = .ok none := by
  induction count generalizing source with
  | zero => exact h.read.1
  | succ count ih => exact ih h.read.2

end ByteSource.Holds

/-- Where bytes are cut into buffers does not matter. Sources of the same bytes answer all reads
alike, also after an error. The answers are first the characters of the longest text that the bytes
begin with; then every read reports the end, if that is all, and else the next one reports malformed
bytes. If the bytes spell a text, then scanning them goes as scanning the text, request by
request. -/
theorem byte_sources_ignore_cuts (buffers : List (List UInt8)) :
    (∀ other : List (List UInt8), other.flatten = buffers.flatten →
      CharSource.Alike (ByteSource.ofBuffers buffers) (ByteSource.ofBuffers other)) ∧
    (∃ cs rest, LongestText buffers.flatten cs rest ∧
      (∀ i c, cs[i]? = some c →
        CharSource.answer (ByteSource.ofBuffers buffers) i = .ok (some c)) ∧
      (rest = [] → ∀ i, cs.length ≤ i →
        CharSource.answer (ByteSource.ofBuffers buffers) i = .ok none) ∧
      (rest ≠ [] → ∃ e : ReadError, e.isMalformed = true ∧
        CharSource.answer (ByteSource.ofBuffers buffers) cs.length = .error e)) ∧
    ∀ text, buffers.flatten = ofString text → ∀ t : Tables, t.Admitted → ∀ skip,
      ∃ (s : Session ByteSource) (s' : Session TextSource),
        (Session.ofTables t skip).bind (ByteSource.ofBuffers buffers) = (.ok (), s) ∧
        (Session.ofTables t skip).bind (TextSource.ofString text) = (.ok (), s') ∧
        ∀ count, (s.after count).next.1 = (s'.after count).next.1 := by
  have holds := ByteSource.Holds.ofBuffers buffers
  refine ⟨fun other same => ?_, ?_, fun text spelled t admitted skip => ?_⟩
  · exact holds.alike (same ▸ .ofBuffers other)
  · obtain ⟨cs, rest, text, malformed⟩ := exists_longestText buffers.flatten
    rw [text.divided] at holds
    refine ⟨cs, rest, text, fun i c found => holds.answer_of_getElem? found, ?_, fun more => ?_⟩
    · rintro rfl i behind
      obtain ⟨count, rfl⟩ := Nat.exists_eq_add_of_le behind
      rw [CharSource.answer_add]
      exact holds.after_encode.answer_nil count
    · obtain ⟨e, kind, answer⟩ := malformed more
      exact ⟨e, kind, holds.after_encode.read.1.trans answer⟩
  · rw [spelled] at holds
    have alike : CharSource.Alike (ByteSource.ofBuffers buffers) (TextSource.ofString text) :=
      holds.alike_text
    obtain ⟨first, requests⟩ := Session.answers_alike admitted.sound skip alike
    have bound : ((Session.ofTables t skip).bind (TextSource.ofString text)).1 = .ok () := by
      simp [Session.bind, Session.unbind, Session.ofTables, Cursor.start, Cursor.read_text]
    exact ⟨_, _, Prod.ext (first.trans bound) rfl, Prod.ext bound rfl, requests⟩

/-- A character that is cut in two. -/
theorem cut_character_is_read :
    let buffers : List (List UInt8) := [[0x61, 0xC3], [0xA9]]
    let whole : List (List UInt8) := [[0x61, 0xC3, 0xA9]]
    let source := ByteSource.ofBuffers buffers
    let t := (RuleSet.ofDeclarations []).compile
    whole.flatten = buffers.flatten ∧ buffers.flatten = ofString "aé" ∧ t.Admitted ∧
      CharSource.Alike source (ByteSource.ofBuffers whole) ∧
      CharSource.answer source 1 = .ok (some 'é') ∧
      (∀ i, 2 ≤ i → CharSource.answer source i = .ok none) ∧
      ∃ (s : Session ByteSource) (s' : Session TextSource),
        (Session.ofTables t false).bind source = (.ok (), s) ∧
        (Session.ofTables t false).bind (TextSource.ofString "aé") = (.ok (), s') ∧
        s.next.1 = s'.next.1 := by
  intro buffers whole source t
  have same : whole.flatten = buffers.flatten := rfl
  have spelled : buffers.flatten = ofString "aé" := by decide
  have admitted : t.Admitted := .inl ⟨[], rfl⟩
  obtain ⟨alike, ⟨cs, rest, text, first, ends, -⟩, scans⟩ := byte_sources_ignore_cuts buffers
  rw [spelled] at text
  obtain ⟨rfl, rfl⟩ : cs = ['a', 'é'] ∧ rest = [] := text.eq_of_encode
  obtain ⟨s, s', bound, bound', requests⟩ := scans "aé" spelled t admitted false
  exact ⟨same, spelled, admitted, alike whole same, first 1 'é' rfl, ends rfl,
    s, s', bound, bound', requests 0⟩

end TableLexer
