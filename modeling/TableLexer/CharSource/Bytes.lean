import TableLexer.CharSource.Basic
import TableLexer.Text.Utf8

/-!
# Byte sources

UTF-8 text that arrives in pieces. A piece is a buffer of bytes or a failure of the device. Where
the pieces are cut makes no difference to the characters: a sequence may begin in one piece and
end in another. A byte that no sequence begins with is reported and left in place; any other
malformed sequence is reported once its bytes have been taken.
-/

namespace TableLexer

/-- What a device delivers at a time. -/
inductive Piece where
  | bytes (buffer : List UInt8)
  | failure (e : ReadError)
  deriving DecidableEq

namespace Piece

/-- A bound on the characters that a piece can contribute. -/
def size : Piece → Nat
  | bytes buffer => buffer.length
  | failure _ => 0

/-- The bytes and failures of a list of pieces, counted. -/
def total : List Piece → Nat
  | [] => 0
  | piece :: rest => piece.size + total rest

/-- The first byte that a list of pieces delivers, or the failure that comes before it, with the
pieces behind it. At the end there is neither. -/
def firstByte? : List Piece → Option (Except ReadError UInt8 × List Piece)
  | [] => none
  | .bytes [] :: rest => firstByte? rest
  | .bytes (b :: buffer) :: rest => some (.ok b, .bytes buffer :: rest)
  | .failure e :: rest => some (.error e, rest)

/-- The next bytes of a sequence, `count` of them, and the pieces behind them. -/
def takeBytes : Nat → List Piece → Except ReadError (List UInt8) × List Piece
  | 0, pieces => (.ok [], pieces)
  | count + 1, pieces =>
    match firstByte? pieces with
    | none => (.error .incompleteSequence, [])
    | some (.error e, rest) => (.error e, rest)
    | some (.ok b, rest) =>
      match takeBytes count rest with
      | (.ok bs, rest') => (.ok (b :: bs), rest')
      | (.error e, rest') => (.error e, rest')

/-- The next character of a list of pieces, and the pieces behind it. -/
def readChar (pieces : List Piece) : Except ReadError (Option Char) × List Piece :=
  match firstByte? pieces with
  | none => (.ok none, [])
  | some (.error e, rest) => (.error e, rest)
  | some (.ok lead, rest) =>
    match Text.Utf8.sequenceLength? lead with
    | none => (.error .invalidLead, pieces)
    | some n =>
      match takeBytes (n - 1) rest with
      | (.error e, rest') => (.error e, rest')
      | (.ok more, rest') =>
        match Text.Utf8.decodeChar? (lead :: more) with
        | none => (.error .invalidSequence, rest')
        | some c => (.ok (some c), rest')

theorem total_lt_of_firstByte? {pieces rest : List Piece} {b : UInt8}
    (h : firstByte? pieces = some (.ok b, rest)) : total rest < total pieces := by
  induction pieces with
  | nil => simp [firstByte?] at h
  | cons piece pieces ih =>
    match piece with
    | .bytes [] => simpa [total, size] using ih h
    | .bytes (c :: buffer) =>
      simp only [firstByte?, Option.some.injEq, Prod.mk.injEq] at h
      simp [← h.2, total, size]
    | .failure e => simp [firstByte?] at h

theorem total_le_of_takeBytes {count : Nat} {pieces rest : List Piece} {bs : List UInt8}
    (h : takeBytes count pieces = (.ok bs, rest)) : total rest ≤ total pieces := by
  induction count generalizing pieces bs with
  | zero =>
    simp only [takeBytes, Prod.mk.injEq] at h
    simp [h.2]
  | succ count ih =>
    simp only [takeBytes] at h
    split at h
    · simp at h
    · simp at h
    · next hb =>
      split at h
      · next ht =>
        obtain ⟨-, rfl⟩ := Prod.mk.inj h
        exact Nat.le_trans (ih ht) (Nat.le_of_lt (total_lt_of_firstByte? hb))
      · simp at h

theorem total_lt_of_readChar {pieces rest : List Piece} {c : Char}
    (h : readChar pieces = (.ok (some c), rest)) : total rest < total pieces := by
  simp only [readChar] at h
  split at h
  · simp at h
  · simp at h
  · next hb =>
    split at h
    · simp at h
    · split at h
      · simp at h
      · next ht =>
        split at h
        · simp at h
        · obtain ⟨-, rfl⟩ := Prod.mk.inj h
          exact Nat.lt_of_le_of_lt (total_le_of_takeBytes ht) (total_lt_of_firstByte? hb)

/-- The bytes of a list of pieces up to its end, unless a failure comes first. -/
def drain : List Piece → Except ReadError (List UInt8)
  | [] => .ok []
  | .failure e :: _ => .error e
  | .bytes buffer :: rest => (drain rest).map (buffer ++ ·)

end Piece

/-- A device that delivers pieces, or nothing more once it is closed. -/
structure ByteSource where
  pieces : Option (List Piece)
  deriving DecidableEq

namespace ByteSource

/-- A source that delivers all bytes at once. -/
def ofBytes (bytes : List UInt8) : ByteSource := ⟨some [.bytes bytes]⟩

/-- A source that delivers the given pieces. -/
def ofPieces (pieces : List Piece) : ByteSource := ⟨some pieces⟩

instance : CharSource ByteSource where
  read
    | ⟨none⟩ => (.ok none, ⟨none⟩)
    | ⟨some pieces⟩ => ((Piece.readChar pieces).1, ⟨some (Piece.readChar pieces).2⟩)
  close _ := (.ok (), ⟨none⟩)
  remaining s := Piece.total (s.pieces.getD [])
  remaining_lt {s s' c} h := by
    obtain ⟨pieces⟩ := s
    cases pieces with
    | none => simp at h
    | some pieces =>
      simp only [Prod.mk.injEq] at h
      rw [← h.2]
      exact Piece.total_lt_of_readChar (Prod.ext h.1 rfl)

end ByteSource

end TableLexer
