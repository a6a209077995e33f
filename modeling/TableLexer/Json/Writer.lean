import TableLexer.Json.Basic

/-!
# Writing JSON

A value is written on one line or, with a depth of indentation, over several. Both forms differ in
white space only. An empty array or object is two brackets in both.
-/

namespace TableLexer.Json

/-- A digit in base sixteen. -/
def hexDigit (n : Nat) : Char := Nat.digitChar n

/-- A character inside a string. Quotes, backslashes and control characters are escaped. -/
def escapeChar (c : Char) : List Char :=
  if c = '\x22' then ['\\', '\x22']
  else if c = '\\' then ['\\', '\\']
  else if c = '\x08' then ['\\', 'b']
  else if c = '\x0c' then ['\\', 'f']
  else if c = '\n' then ['\\', 'n']
  else if c = '\r' then ['\\', 'r']
  else if c = '\t' then ['\\', 't']
  else if c.toNat < 32 then ['\\', 'u', '0', '0', hexDigit (c.toNat / 16), hexDigit (c.toNat % 16)]
  else [c]

/-- A text between quotes. -/
def writeString (text : String) : List Char :=
  '\x22' :: text.toList.flatMap escapeChar ++ ['\x22']

/-- A new line with two spaces for each level, or nothing if all goes on one line. -/
def newLine : Option Nat → List Char
  | none => []
  | some depth => '\n' :: List.replicate (2 * depth) ' '

/-- The space that follows a colon, unless all goes on one line. -/
def colonSpace : Option Nat → List Char
  | none => []
  | some _ => [' ']

mutual

/-- A value at a depth of indentation, or on one line. -/
def write (layout : Option Nat) : Json → List Char
  | null | unusable => ['n', 'u', 'l', 'l']
  | bool true => ['t', 'r', 'u', 'e']
  | bool false => ['f', 'a', 'l', 's', 'e']
  | number n => Nat.toDigits 10 n
  | string text => writeString text
  | array [] => ['[', ']']
  | array (v :: vs) =>
    let inner := layout.map (· + 1)
    '[' :: newLine inner ++ write inner v ++ writeItems inner vs ++ newLine layout ++ [']']
  | object [] => ['\x7b', '\x7d']
  | object ((name, v) :: ms) =>
    let inner := layout.map (· + 1)
    '\x7b' :: newLine inner ++ writeString name ++ ':' :: colonSpace layout ++ write inner v
      ++ writeMembers inner ms ++ newLine layout ++ ['\x7d']

/-- The items of an array behind the first. -/
def writeItems (layout : Option Nat) : List Json → List Char
  | [] => []
  | v :: vs => ',' :: newLine layout ++ write layout v ++ writeItems layout vs

/-- The members of an object behind the first. -/
def writeMembers (layout : Option Nat) : List (String × Json) → List Char
  | [] => []
  | (name, v) :: ms =>
    ',' :: newLine layout ++ writeString name ++ ':' :: colonSpace layout ++ write layout v
      ++ writeMembers layout ms

end

/-- A value on one line. -/
def compact (v : Json) : String := String.ofList (v.write none)

/-- A value over several lines, indented by two spaces. -/
def pretty (v : Json) : String := String.ofList (v.write (some 0))

end TableLexer.Json
