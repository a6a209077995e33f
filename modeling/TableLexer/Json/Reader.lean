import TableLexer.Json.Basic
import TableLexer.Text.Utf8

/-!
# Reading JSON

A strict reader over bytes: no comments, no trailing commas, no byte-order mark, nothing but white
space around the value. Control characters must be escaped inside strings. Other errors in the
content of a string (a lone surrogate, malformed UTF-8) leave the text well formed, but the string
unusable; they matter only if a field asks for it.
-/

namespace TableLexer.Json

/-- White space between the parts of a text. -/
def isSpace (b : UInt8) : Bool := b = 0x20 || b = 0x0A || b = 0x0D || b = 0x09

/-- The bytes behind white space. -/
def skipSpace (bytes : List UInt8) : List UInt8 := bytes.dropWhile isSpace

/-- A decimal digit. -/
def isDigit (b : UInt8) : Bool := 0x30 ≤ b && b ≤ 0x39

/-- The number that decimal digits spell. -/
def decimal (digits : List UInt8) : Nat :=
  digits.foldl (fun n b => 10 * n + (b.toNat - 0x30)) 0

/-- The bytes behind a word. -/
def dropWord? : List UInt8 → List UInt8 → Option (List UInt8)
  | [], bytes => some bytes
  | w :: ws, b :: bytes => if w = b then dropWord? ws bytes else none
  | _ :: _, [] => none

/-! ## Strings -/

/-- A piece of a string's content: a byte as it stands, or a code unit given by its number. -/
inductive StringUnit where
  | byte (b : UInt8)
  | unit (n : Nat)

/-- The value of a digit in base sixteen. -/
def hexValue? (b : UInt8) : Option Nat :=
  if 0x30 ≤ b && b ≤ 0x39 then some (b.toNat - 0x30)
  else if 0x61 ≤ b && b ≤ 0x66 then some (b.toNat - 0x61 + 10)
  else if 0x41 ≤ b && b ≤ 0x46 then some (b.toNat - 0x41 + 10)
  else none

/-- The byte that a one-letter escape stands for. -/
def escapedByte? (letter : UInt8) : Option UInt8 :=
  if letter = 0x22 || letter = 0x5C || letter = 0x2F then some letter
  else if letter = 0x62 then some 0x08
  else if letter = 0x66 then some 0x0C
  else if letter = 0x6E then some 0x0A
  else if letter = 0x72 then some 0x0D
  else if letter = 0x74 then some 0x09
  else none

/-- The content of a string up to its closing quote, and the bytes behind that. -/
def readUnits : List UInt8 → Option (List StringUnit × List UInt8)
  | [] => none
  | b :: rest =>
    if b = 0x22 then some ([], rest)
    else if b < 0x20 then none
    else if b = 0x5C then
      match rest with
      | [] => none
      | letter :: rest' =>
        if letter = 0x75 then
          match rest' with
          | h₁ :: h₂ :: h₃ :: h₄ :: rest'' => do
            let n := (((← hexValue? h₁) * 16 + (← hexValue? h₂)) * 16 + (← hexValue? h₃)) * 16
              + (← hexValue? h₄)
            let (units, last) ← readUnits rest''
            return (.unit n :: units, last)
          | _ => none
        else do
          let c ← escapedByte? letter
          let (units, last) ← readUnits rest'
          return (.byte c :: units, last)
    else do
      let (units, last) ← readUnits rest
      return (.byte b :: units, last)

/-- The bytes that a string's content spells. A code unit of a surrogate pair counts only together
with its other half. -/
def unitBytes? : List StringUnit → Option (List UInt8)
  | [] => some []
  | .byte b :: rest => (unitBytes? rest).map (b :: ·)
  | .unit n :: rest =>
    if n < 0xD800 || 0xDFFF < n then
      (unitBytes? rest).map (Text.Utf8.encodeChar (Char.ofNat n) ++ ·)
    else
      match rest with
      | .unit m :: rest' =>
        if n ≤ 0xDBFF && 0xDC00 ≤ m && m ≤ 0xDFFF then
          let c := Char.ofNat (0x10000 + (n - 0xD800) * 0x400 + (m - 0xDC00))
          (unitBytes? rest').map (Text.Utf8.encodeChar c ++ ·)
        else none
      | _ => none

/-- The text that a string's content spells. -/
def unitText? (units : List StringUnit) : Option String :=
  (unitBytes? units).bind Text.Utf8.decode?

/-! ## Numbers -/

/-- At least one digit, and the bytes behind the digits. -/
def readDigits (bytes : List UInt8) : Option (List UInt8 × List UInt8) :=
  match bytes.span isDigit with
  | ([], _) => none
  | (digits, rest) => some (digits, rest)

/-- The digits before a fraction. A zero is not followed by more. -/
def readWhole (bytes : List UInt8) : Option (List UInt8 × List UInt8) := do
  let (digits, rest) ← readDigits bytes
  if digits.head? = some 0x30 && 1 < digits.length then none else some (digits, rest)

/-- The bytes behind a fraction, if there is one. -/
def skipFraction : List UInt8 → Option (List UInt8)
  | [] => some []
  | b :: rest => if b = 0x2E then (readDigits rest).map (·.2) else some (b :: rest)

/-- The bytes behind a sign, if there is one. -/
def skipSign : List UInt8 → List UInt8
  | [] => []
  | b :: rest => if b = 0x2B || b = 0x2D then rest else b :: rest

/-- The bytes behind an exponent, if there is one. -/
def skipExponent : List UInt8 → Option (List UInt8)
  | [] => some []
  | b :: rest =>
    if b = 0x65 || b = 0x45 then (readDigits (skipSign rest)).map (·.2) else some (b :: rest)

/-- Whether a fraction or an exponent follows the digits. -/
def continuesNumber : List UInt8 → Bool
  | [] => false
  | b :: _ => b = 0x2E || b = 0x65 || b = 0x45

/-- A number, of which the value is kept if it is written with digits only. -/
def readNumber : List UInt8 → Option (Json × List UInt8)
  | [] => none
  | b :: rest =>
    if b = 0x2D then do
      let (_, rest') ← readWhole rest
      let last ← (skipFraction rest').bind skipExponent
      return (unusable, last)
    else do
      let (digits, rest') ← readWhole (b :: rest)
      if continuesNumber rest' then
        let last ← (skipFraction rest').bind skipExponent
        return (unusable, last)
      else return (number (decimal digits), rest')

/-! ## Values -/

/-- An object, unless one of its names spells no text. -/
def objectOf (members : List (Option String × Json)) : Json :=
  match members.mapM fun (name, v) => name.map (·, v) with
  | some members => object members
  | none => unusable

mutual

/-- A value and the bytes behind it. The number bounds the steps. -/
def readValue : Nat → List UInt8 → Option (Json × List UInt8)
  | 0, _ => none
  | fuel + 1, bytes =>
    match skipSpace bytes with
    | [] => none
    | b :: rest =>
      if b = 0x7B then
        match skipSpace rest with
        | [] => none
        | c :: rest' =>
          if c = 0x7D then some (object [], rest')
          else (readMembers fuel (c :: rest')).map fun (members, last) => (objectOf members, last)
      else if b = 0x5B then
        match skipSpace rest with
        | [] => none
        | c :: rest' =>
          if c = 0x5D then some (array [], rest')
          else (readItems fuel (c :: rest')).map fun (items, last) => (array items, last)
      else if b = 0x22 then
        (readUnits rest).map fun (units, last) =>
          (((unitText? units).map string).getD unusable, last)
      else if b = 0x6E then (dropWord? [0x75, 0x6C, 0x6C] rest).map (null, ·)
      else if b = 0x74 then (dropWord? [0x72, 0x75, 0x65] rest).map (bool true, ·)
      else if b = 0x66 then (dropWord? [0x61, 0x6C, 0x73, 0x65] rest).map (bool false, ·)
      else readNumber (b :: rest)

/-- The items of an array up to its closing bracket. -/
def readItems : Nat → List UInt8 → Option (List Json × List UInt8)
  | 0, _ => none
  | fuel + 1, bytes => do
    let (v, rest) ← readValue fuel bytes
    match skipSpace rest with
    | [] => none
    | b :: rest' =>
      if b = 0x5D then return ([v], rest')
      else if b = 0x2C then
        let (vs, last) ← readItems fuel rest'
        return (v :: vs, last)
      else none

/-- The members of an object up to its closing bracket. -/
def readMembers : Nat → List UInt8 → Option (List (Option String × Json) × List UInt8)
  | 0, _ => none
  | fuel + 1, bytes =>
    match skipSpace bytes with
    | [] => none
    | q :: rest =>
      if q = 0x22 then do
        let (units, rest₁) ← readUnits rest
        match skipSpace rest₁ with
        | [] => none
        | colon :: rest₂ =>
          if colon = 0x3A then
            let (v, rest₃) ← readValue fuel rest₂
            match skipSpace rest₃ with
            | [] => none
            | b :: rest₄ =>
              if b = 0x7D then return ([(unitText? units, v)], rest₄)
              else if b = 0x2C then
                let (ms, last) ← readMembers fuel rest₄
                return ((unitText? units, v) :: ms, last)
              else none
          else none
      else none

end

/-- The value that a text spells. -/
def read? (bytes : List UInt8) : Option Json :=
  match readValue (2 * bytes.length + 2) bytes with
  | some (v, rest) => if (skipSpace rest).isEmpty then some v else none
  | none => none

end TableLexer.Json
