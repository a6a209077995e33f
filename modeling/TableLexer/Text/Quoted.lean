import TableLexer.Unicode.GraphemeExtend
import TableLexer.Unicode.Unprintable

/-!
# Quoted text

Messages and listings show texts and characters between quotes. A backslash escapes the quote, the
backslash itself and the usual control characters; every other character that would not show, or
that would join the one before it, is written by its code point in hexadecimal.
-/

namespace TableLexer.Text

/-- Digits of a number in base sixteen, in lower case and without leading zeros. -/
def hexadecimal (n : Nat) : String := String.ofList (Nat.toDigits 16 n)

/-- The code point of a character between braces. -/
def codePointEscape (c : Char) : String := "\\u\x7b" ++ hexadecimal c.toNat ++ "\x7d"

/-- Whether a character joins the one before it. The two halfwidth sound marks have the property of
such characters, but take a cell of their own. -/
def joinsPrevious (c : Char) : Bool :=
  Unicode.isGraphemeExtend c && !(c = '\uff9e' || c = '\uff9f')

/-- One character of a quoted text, where `quote` is the mark that encloses the text. -/
def quotedChar (quote c : Char) : String :=
  if c = '\x00' then "\\0"
  else if c = '\t' then "\\t"
  else if c = '\n' then "\\n"
  else if c = '\r' then "\\r"
  else if c = '\\' || c = quote then String.ofList ['\\', c]
  else if joinsPrevious c || Unicode.isUnprintable c then codePointEscape c
  else String.singleton c

/-- A text between double quotes. -/
def quoted (text : String) : String :=
  "\"" ++ String.join (text.toList.map (quotedChar '\x22')) ++ "\""

/-- A character between single quotes. -/
def quotedCharacter (c : Char) : String := "'" ++ quotedChar '\x27' c ++ "'"

end TableLexer.Text
