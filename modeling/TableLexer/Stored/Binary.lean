import TableLexer.Stored.Json

/-!
# Tables in binary form

Eight bytes mark the format. Four counts follow: states, columns, characters, exact rules. Then
come the characters with their symbols, one byte for the kind of each state, the rows, and the
exact rules, each with the length of its text. Numbers are 32-bit words, lowest byte first.
Characters and texts are written in order, so equal tables have one form.

Reading names the section in which the bytes end too early. The room for the rows is checked before
anything is read that the counts call for.
-/

namespace TableLexer

namespace Binary

/-- The bytes that mark the format. -/
def magic : List UInt8 := [0x52, 0x4C, 0x58, 0x54, 0x42, 0x4C, 0x30, 0x31]

/-- The lowest bytes of a number, the lowest one first. -/
def littleEndian : Nat → Nat → List UInt8
  | 0, _ => []
  | count + 1, n => UInt8.ofNat (n % 256) :: littleEndian count (n / 256)

/-- The number that bytes spell, the lowest one first. -/
def ofLittleEndian : List UInt8 → Nat
  | [] => 0
  | b :: bs => b.toNat + 256 * ofLittleEndian bs

/-- A 32-bit word. -/
def word (n : Nat) : List UInt8 := littleEndian 4 n

/-- A text with its length in bytes in front. -/
def lengthed (text : String) : List UInt8 :=
  let bytes := Text.Utf8.ofString text
  word bytes.length ++ bytes

/-- Parts of tables in binary form. -/
def encode (p : TableParts) : List UInt8 :=
  magic
    ++ word p.kinds.length ++ word p.width ++ word p.pairs.length ++ word p.lexemes.length
    ++ p.pairs.flatMap (fun (c, s) => word c.toNat ++ word s)
    ++ p.kinds.map (fun kind => UInt8.ofNat kind.code)
    ++ p.rows.flatMap (·.flatMap word)
    ++ p.lexemes.flatMap (fun (text, s) => lengthed text ++ word s)

/-- A part of the binary form. -/
inductive Section where
  | magic
  | header
  | alphabet
  | kinds
  | transitions
  | lexemeLength
  | lexeme
  | lexemeState
  deriving DecidableEq

/-- The name of a section in messages. -/
def Section.name : Section → String
  | magic => "magic"
  | header => "header"
  | alphabet => "alphabet"
  | kinds => "token kinds"
  | transitions => "transitions"
  | lexemeLength => "lexeme length"
  | lexeme => "lexeme"
  | lexemeState => "lexeme state"

/-- Why bytes are no tables in binary form. -/
inductive Error where
  | truncated (part : Section)
  | badMagic
  | rowsExceedInput (states width : Nat)
  | invalidChar (code : Nat)
  | unknownKind (code : Nat)
  | lexemeNotText
  | trailing (count : Nat)
  deriving DecidableEq

/-- The wording of an error. -/
def Error.message : Error → String
  | truncated part => "truncated " ++ part.name
  | badMagic => "bad magic in tables .bin"
  | rowsExceedInput states width =>
    s!"transition matrix of {states}x{width} exceeds the input"
  | invalidChar code => "invalid character 0x" ++ Text.hexadecimal code ++ " in alphabet"
  | unknownKind code => s!"unknown token kind {code}"
  | lexemeNotText => "lexeme is not UTF-8"
  | trailing count => s!"{count} trailing bytes after tables"

/-- A reader of bytes that leaves the rest. -/
abbrev Decoder (α : Type) := StateT (List UInt8) (Except Error) α

/-- The next bytes, `count` of them. -/
def take (count : Nat) (part : Section) : Decoder (List UInt8) := fun bytes =>
  let front := bytes.take count
  if front.length = count then .ok (front, bytes.drop count) else .error (.truncated part)

/-- The next 32-bit word. -/
def takeWord (part : Section) : Decoder Nat := return ofLittleEndian (← take 4 part)

/-- What a reader gives when it runs so many times. -/
def times {α : Type} : Nat → Decoder α → Decoder (List α)
  | 0, _ => return []
  | count + 1, d => do
    let x ← d
    let xs ← times count d
    return x :: xs

/-- The character with a given code point. -/
def charOf (code : Nat) : Except Error Char :=
  if (Char.ofNat code).toNat = code then .ok (Char.ofNat code) else .error (.invalidChar code)

/-- A character with its symbol. -/
def takePair : Decoder (Char × Symbol) := do
  let c ← charOf (← takeWord .alphabet)
  return (c, ← takeWord .alphabet)

/-- The kind with a given code. -/
def kindOf (byte : UInt8) : Except Error TokenKind :=
  match TokenKind.ofCode? byte.toNat with
  | some kind => .ok kind
  | none => .error (.unknownKind byte.toNat)

/-- A text of an exact rule with its state. -/
def takeLexeme : Decoder (String × StateId) := do
  let bytes ← take (← takeWord .lexemeLength) .lexeme
  match Text.Utf8.decode? bytes with
  | some text => return (text, ← takeWord .lexemeState)
  | none => throw .lexemeNotText

/-- Checks that the rows fit into the bytes that are left. -/
def checkRoom (states width : Nat) : Decoder Unit := fun bytes =>
  if 4 * (states * width) ≤ bytes.length then .ok ((), bytes)
  else .error (.rowsExceedInput states width)

/-- Checks that no bytes are left. -/
def checkEnd : Decoder Unit := fun bytes =>
  if bytes = [] then .ok ((), bytes) else .error (.trailing bytes.length)

/-- The parts of tables. -/
def takeParts : Decoder TableParts := do
  if (← take 8 .magic) ≠ magic then throw .badMagic
  let states ← takeWord .header
  let width ← takeWord .header
  let chars ← takeWord .header
  let lexemeCount ← takeWord .header
  checkRoom states width
  let pairs ← times chars takePair
  let kinds ← (← take states .kinds).mapM (fun byte => kindOf byte)
  let rows ← times states (times width (takeWord .transitions))
  let lexemes ← times lexemeCount takeLexeme
  checkEnd
  return ⟨pairs, kinds, rows, lexemes⟩

/-- The parts that bytes spell in binary form. -/
def decode (bytes : List UInt8) : Except Error TableParts :=
  (takeParts.run bytes).map (·.1)

end Binary

/-- Tables in binary form. -/
def Tables.toBinary (t : Tables) : List UInt8 := Binary.encode t.parts

end TableLexer
