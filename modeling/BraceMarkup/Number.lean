/-
  Numbers as texts show them.

  A number is a double.  It is written with the fewest digits that read back,
  without an exponent, and read only where its text begins with a digit.

  * `numberText`: the text of a number;
  * `readNumber?`: the number that a text stands for.
-/
import BraceMarkup.Decimal.Nearest
import BraceMarkup.Decimal.Shortest

namespace BraceMarkup

/-- A number with the fewest digits that read back.  A zero keeps its sign. -/
def numberText (x : Float) : String :=
  let bits := x.toBits.toNat
  let magnitude := bits % Nat.pow 2 63
  let sign := if bits = magnitude then "" else "-"
  if infinityBits < magnitude then "NaN"
  else if magnitude = infinityBits then sign ++ "inf"
  else sign ++ (Binary.ofBits magnitude).shortest.positional

/-- The number nearest to what a text stands for, if it begins with a digit and is a decimal number
    throughout. -/
def readNumber? (s : String) : Option Float :=
  match s.toList with
  | c :: _ => if c.isDigit then (Decimal.read? s).map Decimal.toFloat else none
  | [] => none

end BraceMarkup
