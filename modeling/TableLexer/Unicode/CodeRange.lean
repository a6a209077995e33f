/-!
# Ranges of code points

A property of characters is given by the ranges of code points that have it, in increasing order.
-/

namespace TableLexer.Unicode

/-- The code points from `first` to `last`, both included. -/
structure CodeRange where
  first : Nat
  last : Nat

/-- Whether one of the ranges holds the character. -/
def covered (ranges : List CodeRange) (c : Char) : Bool :=
  ranges.any fun range => range.first ≤ c.toNat && c.toNat ≤ range.last

end TableLexer.Unicode
