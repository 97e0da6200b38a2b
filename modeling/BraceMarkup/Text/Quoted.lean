/-
  Quoted text, as messages show names.

  A text is put between double quotes.  Quotes, backslashes, line feeds,
  carriage returns, tabs and nulls are written with a backslash, and every
  unprintable character as its code point in braces.

  * `hexDigits`: a number in lower-case hexadecimal;
  * `quoted`: the quoted form of a text.
-/
import BraceMarkup.Text.Unprintable

namespace BraceMarkup.Text

/-- A number in lower-case hexadecimal, without leading zeros. -/
def hexDigits (n : Nat) : String := String.ofList (Nat.toDigits 16 n)

/-- A character as it stands inside a quoted text. -/
def quotedChar (c : Char) : String :=
  match c with
  | '"' => "\\\""
  | '\\' => "\\\\"
  | '\n' => "\\n"
  | '\r' => "\\r"
  | '\t' => "\\t"
  | '\x00' => "\\0"
  | c => if isUnprintable c then "\\u\x7b" ++ hexDigits c.toNat ++ "\x7d" else c.toString

/-- A text between double quotes, with what cannot be shown escaped. -/
def quoted (s : String) : String :=
  "\"" ++ String.join (s.toList.map quotedChar) ++ "\""

end BraceMarkup.Text
