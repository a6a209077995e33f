/-!
# File paths

A path is a text whose pieces are separated by slashes. An empty piece and a single dot name
nothing; two dots lead back to the enclosing folder.
-/

namespace TableLexer.Path

/-- The most bytes that a name may have. -/
def nameLimit : Nat := 255

/-- The most bytes that a path may have. -/
def pathLimit : Nat := 4095

/-- The pieces between the slashes. -/
def pieces (path : String) : List String := (path.toList.splitOn '/').map String.ofList

/-- Whether a piece names nothing of its own. -/
def isIdle (piece : String) : Bool := piece == "" || piece == "."

/-- Pieces without the idle ones at the end. The first piece stays, for it may be the root or the
current folder. -/
def trim : List String → List String
  | [] => []
  | first :: rest => first :: (rest.reverse.dropWhile isIdle).reverse

/-- The folder that a path names an entry of, unless that is the current folder. -/
def folder? (path : String) : Option String :=
  match trim (pieces path) with
  | first :: next :: rest =>
    let upper := trim (first :: (next :: rest).dropLast)
    some (if upper = [""] then "/" else String.intercalate "/" upper)
  | _ => none

/-- What follows the last dot of a file name. A name has no extension if it has no dot or only a dot
at the front. -/
def extension? (path : String) : Option String :=
  match (trim (pieces path)).getLast? with
  | none => none
  | some name =>
    if name = ".." then none
    else
      match name.toList.reverse.span (· != '.') with
      | (after, _ :: _ :: _) => some (String.ofList after.reverse)
      | _ => none

end TableLexer.Path
