/-
  Positions in a text.

  A `Position` is a line and a column, both counted from one.  Only a line
  feed starts a new line; every other character moves one column on.

  * `Position.advance`, `Position.advanceList`: the position after reading a
    character, or a list of characters;
  * `Position.describe`: the words that messages put behind a fault.
-/

namespace BraceMarkup

/-- A place in a text: line and column, both counted from one. -/
structure Position where
  line : Nat
  column : Nat
  deriving Repr, DecidableEq, Inhabited

/-- The place of the first character of a text. -/
def Position.start : Position := ⟨1, 1⟩

/-- The position after reading one character. -/
def Position.advance (p : Position) (c : Char) : Position :=
  if c = '\n' then ⟨p.line + 1, 1⟩ else ⟨p.line, p.column + 1⟩

/-- The position after reading the characters of a list, first to last. -/
def Position.advanceList (p : Position) (cs : List Char) : Position :=
  cs.foldl Position.advance p

@[simp] theorem Position.advanceList_nil (p : Position) : p.advanceList [] = p := rfl

@[simp] theorem Position.advanceList_cons (p : Position) (c : Char) (cs : List Char) :
    p.advanceList (c :: cs) = (p.advance c).advanceList cs := rfl

/-- Reading two lists one after the other is reading their concatenation. -/
theorem Position.advanceList_append (p : Position) (cs ds : List Char) :
    p.advanceList (cs ++ ds) = (p.advanceList cs).advanceList ds := by
  simp [Position.advanceList]

/-- The position in words, as messages give it. -/
def Position.describe (p : Position) : String :=
  "line " ++ toString p.line ++ ", column " ++ toString p.column

end BraceMarkup
