import Std.Data.ExtTreeMap
import Std.Data.ExtTreeSet
import TableLexer.Text.Folding

/-!
# Alphabets

An alphabet maps characters to the columns of a transition table. Only characters that occur in some
rule get a column of their own; all others share one. Three columns are reserved: the end of the
stream, any unregistered character, and the characters that serve as separators and nothing else.

Registration order matters in one point only: a character that has a symbol keeps it, even if it is
a case variant of one that is registered later. Separators are therefore registered before rules.
-/

namespace TableLexer

/-- A column of the transition table. -/
abbrev Symbol := Nat

namespace Symbol

/-- The column that stands for the end of the stream. -/
def endOfStream : Symbol := 0

/-- The column of every character that has none of its own. -/
def wildcard : Symbol := 1

/-- The column of the characters that only separate words. -/
def separator : Symbol := 2

/-- The first column that is free for a character. -/
def firstFree : Symbol := 3

end Symbol

/-- Symbols of characters, the number of columns in use, and the columns that separate words. -/
structure Alphabet where
  symbols : Std.ExtTreeMap Char Symbol
  size : Nat
  separators : Std.ExtTreeSet Symbol
  deriving DecidableEq

namespace Alphabet

/-- The alphabet that knows no character. -/
def empty : Alphabet := ⟨∅, Symbol.firstFree, ∅⟩

/-- The alphabet of stored pairs. Of several pairs for a character the last one counts. -/
def ofPairs (pairs : List (Char × Symbol)) (size : Nat) : Alphabet :=
  ⟨Std.ExtTreeMap.ofList pairs, max size Symbol.firstFree, ∅⟩

/-- The column of the next character, or of the end of the stream. -/
def symbolOf (a : Alphabet) : Option Char → Symbol
  | none => Symbol.endOfStream
  | some c => (a.symbols[c]?).getD Symbol.wildcard

/-- Whether a column separates words. -/
def isSeparator (a : Alphabet) (s : Symbol) : Bool := a.separators.contains s

/-- The registered characters with their symbols, in the order of the characters. -/
def pairs (a : Alphabet) : List (Char × Symbol) := a.symbols.toList

/-- The number of registered characters. -/
def charCount (a : Alphabet) : Nat := a.symbols.size

/-- Makes a column separate words. -/
def mark (a : Alphabet) (s : Symbol) : Alphabet := { a with separators := a.separators.insert s }

/-- Gives a character the next free column. Its case variants share the column if case is ignored
and they have none yet. -/
def allot (a : Alphabet) (c : Char) (ignoreCase : Bool) : Alphabet :=
  let own := a.symbols.insert c a.size
  let shared :=
    if ignoreCase then (Text.caseVariants c).foldl (·.insertIfNew · a.size) own else own
  { a with symbols := shared, size := a.size + 1 }

/-- Registers a character of a rule. One that was only a separator moves to a column of its own,
which separates words as well. -/
def register (a : Alphabet) (c : Char) (ignoreCase : Bool) : Alphabet :=
  match a.symbols[c]? with
  | none => a.allot c ignoreCase
  | some s =>
    if s = Symbol.separator then ((a.allot c ignoreCase).mark a.size).mark Symbol.separator else a

/-- Registers the characters of a list in turn. -/
def registerAll (a : Alphabet) (cs : List Char) (ignoreCase : Bool) : Alphabet :=
  cs.foldl (·.register · ignoreCase) a

/-- Registers a separator. A character that rules already use keeps its column, which from now on
separates words. -/
def registerSeparator (a : Alphabet) (c : Char) : Alphabet :=
  match a.symbols[c]? with
  | some s => a.mark s
  | none => { a with symbols := a.symbols.insert c Symbol.separator }.mark Symbol.separator

/-- The alphabet as compiled tables keep it: which columns separate words is wired into the rows. -/
def freeze (a : Alphabet) : Alphabet := { a with separators := ∅ }

@[simp] theorem symbolOf_none (a : Alphabet) : a.symbolOf none = Symbol.endOfStream := rfl

@[simp] theorem symbolOf_freeze (a : Alphabet) (c : Option Char) :
    a.freeze.symbolOf c = a.symbolOf c := by
  cases c <;> rfl

@[simp] theorem size_freeze (a : Alphabet) : a.freeze.size = a.size := rfl

@[simp] theorem pairs_freeze (a : Alphabet) : a.freeze.pairs = a.pairs := rfl

end Alphabet

end TableLexer
