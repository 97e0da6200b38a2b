/-
  Tables of characters.

  A property of characters that follows no simple rule is kept as a
  `CharTable`: ranges of code points, both ends included, in ascending order.

  * `CharTable.contains`: whether a character lies in one of the ranges.
-/

namespace BraceMarkup.Text

/-- Ranges of code points, each with its first and its last member. -/
abbrev CharTable := List (Nat × Nat)

/-- Whether a character lies in one of the ranges of a table. -/
def CharTable.contains (table : CharTable) (c : Char) : Bool :=
  table.any fun range => range.1 ≤ c.toNat && c.toNat ≤ range.2

end BraceMarkup.Text
