/-!
# UTF-8

Characters and the bytes that stand for them. Bytes are lists, which proofs can take apart. A
sequence of bytes is read by the length its first byte announces, and a candidate character counts
only if it is written as exactly these bytes; so overlong forms, surrogates and numbers beyond the
last code point are refused without being named.
-/

namespace TableLexer.Text.Utf8

/-- The bytes of one character. -/
abbrev encodeChar (c : Char) : List UInt8 := String.utf8EncodeChar c

/-- The bytes of a text. -/
def encode (cs : List Char) : List UInt8 := cs.flatMap encodeChar

/-- The number of bytes of the sequence that a first byte opens. -/
def sequenceLength? (lead : UInt8) : Option Nat :=
  if lead ≤ 0x7F then some 1
  else if 0xC2 ≤ lead && lead ≤ 0xDF then some 2
  else if 0xE0 ≤ lead && lead ≤ 0xEF then some 3
  else if 0xF0 ≤ lead && lead ≤ 0xF4 then some 4
  else none

/-- The code point spelled by the payload bits of a sequence. -/
def payload : List UInt8 → Nat
  | [a] => a.toNat
  | [a, b] => a.toNat % 32 * 64 + b.toNat % 64
  | [a, b, c] => a.toNat % 16 * 4096 + b.toNat % 64 * 64 + c.toNat % 64
  | [a, b, c, d] =>
    a.toNat % 8 * 262144 + b.toNat % 64 * 4096 + c.toNat % 64 * 64 + d.toNat % 64
  | _ => 0

/-- The character that is written as the given bytes. -/
def decodeChar? (bytes : List UInt8) : Option Char :=
  let c := Char.ofNat (payload bytes)
  if encodeChar c = bytes then some c else none

theorem encodeChar_of_decodeChar? {bytes : List UInt8} {c : Char}
    (h : decodeChar? bytes = some c) : encodeChar c = bytes := by
  simp only [decodeChar?] at h
  split at h
  · next heq => exact (Option.some.inj h) ▸ heq
  · contradiction

/-- The text that is written as the given bytes. The number bounds the characters still to be
read. -/
def decodeWithin? : Nat → List UInt8 → Option (List Char)
  | _, [] => some []
  | 0, _ :: _ => none
  | fuel + 1, lead :: rest => do
    let n ← sequenceLength? lead
    let c ← decodeChar? ((lead :: rest).take n)
    let cs ← decodeWithin? fuel ((lead :: rest).drop n)
    return c :: cs

/-- The text that is written as the given bytes, if there is one. -/
def decode? (bytes : List UInt8) : Option String :=
  (decodeWithin? bytes.length bytes).map String.ofList

/-- The bytes of a text. -/
def ofString (text : String) : List UInt8 := encode text.toList

@[simp] theorem encode_nil : encode [] = [] := rfl

@[simp] theorem encode_cons (c : Char) (cs : List Char) :
    encode (c :: cs) = encodeChar c ++ encode cs := rfl

@[simp] theorem encode_append (cs ds : List Char) :
    encode (cs ++ ds) = encode cs ++ encode ds := by
  simp [encode]

end TableLexer.Text.Utf8
