import TableLexer.Unicode.SimpleCase

/-!
# Case folding of rule texts

Rules that ignore case are stored in lower case, character by character. Folding uses simple
mappings only and therefore keeps the number of characters.
-/

namespace TableLexer.Text

/-- The lower-case and the upper-case form of one character. -/
def caseVariants (c : Char) : List Char := [Unicode.toLower c, Unicode.toUpper c]

/-- A text in lower case, one character for one. -/
def fold (text : String) : String := String.ofList (text.toList.map Unicode.toLower)

@[simp] theorem toList_fold (text : String) :
    (fold text).toList = text.toList.map Unicode.toLower := by
  simp [fold]

end TableLexer.Text
