/-
  Tokens of a marked-up text.

  A token is a piece of the text with its kind and its position: plain text,
  the name of an element with its `#`, a run of braces that opens or closes an
  argument, or the end of the text.

  * `Token.Kind`, `Token`: the types;
  * `Token.Kind.describe`: the words for a kind in messages.
-/
import BraceMarkup.Position

namespace BraceMarkup

/-- What a piece of the text stands for. -/
inductive Token.Kind where
  | text
  | elementName
  | argumentOpen
  | argumentClose
  | endOfInput
  deriving Repr, DecidableEq, Inhabited

/-- A piece of the text, as written, with its kind and the position of its first character. -/
structure Token where
  kind : Token.Kind
  text : String
  position : Position
  deriving Repr, DecidableEq, Inhabited

/-- The kind in words. -/
def Token.Kind.describe : Token.Kind → String
  | text => "text"
  | elementName => "element name"
  | argumentOpen => "argument open"
  | argumentClose => "argument close"
  | endOfInput => "end of input"

end BraceMarkup
