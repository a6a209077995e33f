import TableLexer.Json.Reader
import TableLexer.Json.Writer
import TableLexer.Tables

/-!
# Tables as JSON

A record of four fields: the pairs of characters and symbols, the names of the kinds, the rows,
and the pairs of texts and states. The pairs are written in order, so equal tables have one text.
They may be read in any order; of several pairs for one character or text the last one counts.
-/

namespace TableLexer

/-- Tables in parts, as they are stored. -/
structure TableParts where
  pairs : List (Char × Symbol)
  kinds : List TokenKind
  rows : List (List StateId)
  lexemes : List (String × StateId)
  deriving DecidableEq

namespace TableParts

/-- The width of the first row. -/
def width (p : TableParts) : Nat := p.rows.head?.elim 0 List.length

/-- The tables that the parts make up. -/
def assemble (p : TableParts) : Except Tables.Defect Tables :=
  Tables.ofParts (.ofPairs p.pairs p.width) (p.rows.map List.toArray).toArray p.kinds.toArray
    (Std.ExtTreeMap.ofList p.lexemes)

/-- The parts as a record. -/
def toJson (p : TableParts) : Json :=
  .object
    [("alphabet", .array (p.pairs.map fun (c, s) => .array [.string (.singleton c), .number s])),
     ("token_kinds", .array (p.kinds.map fun kind => .string kind.name)),
     ("transitions", .array (p.rows.map fun row => .array (row.map .number))),
     ("lexemes", .array (p.lexemes.map fun (text, s) => .array [.string text, .number s]))]

/-- The parts in a record. All fields must be present, and an object may have others. -/
def ofJson? (v : Json) : Option TableParts := do
  match ← v.fields? ["alphabet", "token_kinds", "transitions", "lexemes"] true with
  | [some pairs, some kinds, some rows, some lexemes] =>
    return {
      pairs := ← pairs.list? (Json.pair? Json.char? Json.word?)
      kinds := ← kinds.list? fun kind => kind.text?.bind TokenKind.ofName?
      rows := ← rows.list? (Json.list? Json.word?)
      lexemes := ← lexemes.list? (Json.pair? Json.text? Json.word?) }
  | _ => none

end TableParts

namespace Tables

/-- The parts of tables, with their pairs in order. -/
def parts (t : Tables) : TableParts where
  pairs := t.alphabet.pairs
  kinds := t.kinds.toList
  rows := t.rows.toList.map Array.toList
  lexemes := t.lexemes.toList

/-- Tables as JSON on one line. -/
def toCompactJson (t : Tables) : String := t.parts.toJson.compact

/-- Tables as indented JSON. -/
def toPrettyJson (t : Tables) : String := t.parts.toJson.pretty

end Tables

end TableLexer
