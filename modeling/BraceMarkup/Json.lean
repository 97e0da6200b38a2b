/-
  JSON values.

  An object keeps its members in the order of the text, members of the same
  name included.  A whole number that fits into 64 bits stays exact; any other
  number is a double.

  * `Json`, `Json.Number`: the types;
  * `Json.Number.toFloat`: a number as a double;
  * `Json.write`, `Json.compact`, `Json.indented`: the text of a value, on one
    line or spread over many.
-/
import BraceMarkup.Number
import BraceMarkup.Text.Quoted

namespace BraceMarkup

/-- A number, kept as it was written: a natural number, the negative of one, or a double. -/
inductive Json.Number where
  | natural (n : Nat)
  | negative (n : Nat)
  | double (x : Float)
  deriving Repr

/-- A JSON value. -/
inductive Json where
  | null
  | boolean (b : Bool)
  | number (n : Json.Number)
  | string (s : String)
  | array (items : List Json)
  | object (members : List (String × Json))
  deriving Repr, Inhabited

namespace Json

/-- The double nearest to a number. -/
def Number.toFloat : Number → Float
  | natural n => (Decimal.mk n 0).toFloat
  | negative n => -(Decimal.mk n 0).toFloat
  | double x => x

/-! ## Writing -/

/-- A character inside a JSON string. -/
def writeChar (c : Char) : String :=
  match c with
  | '"' => "\\\""
  | '\\' => "\\\\"
  | '\x08' => "\\b"
  | '\x0c' => "\\f"
  | '\n' => "\\n"
  | '\r' => "\\r"
  | '\t' => "\\t"
  | c =>
    if c.toNat < 0x10 then "\\u000" ++ Text.hexDigits c.toNat
    else if c.toNat < 0x20 then "\\u00" ++ Text.hexDigits c.toNat
    else c.toString

/-- A JSON string. -/
def writeString (s : String) : String :=
  "\"" ++ String.join (s.toList.map writeChar) ++ "\""

/-- A JSON number. -/
def writeNumber : Number → String
  | .natural n => toString n
  | .negative n => "-" ++ toString n
  | .double x => numberText x

/-- How the parts of a value are set apart: what stands in front of an item that is nested so many
    levels deep, and between the name of a member and its value. -/
structure Layout where
  lineBreak : Nat → String
  colon : String

/-- Everything on one line, without spaces. -/
def Layout.compact : Layout := ⟨fun _ => "", ":"⟩

/-- Every item on a line of its own, with `n` spaces for each level. -/
def Layout.indented (n : Nat) : Layout :=
  ⟨fun level => "\n" ++ String.ofList (List.replicate (n * level) ' '), ": "⟩

section
variable (layout : Layout)

mutual

/-- A value whose items are nested below `level` others. -/
def writeAt (level : Nat) : Json → String
  | .null => "null"
  | .boolean b => if b then "true" else "false"
  | .number n => writeNumber n
  | .string s => writeString s
  | .array [] => "[]"
  | .array (item :: rest) =>
    "[" ++ layout.lineBreak (level + 1) ++ writeAt (level + 1) item ++ writeItems (level + 1) rest
      ++ layout.lineBreak level ++ "]"
  | .object [] => "\x7b\x7d"
  | .object ((name, value) :: rest) =>
    "\x7b" ++ layout.lineBreak (level + 1) ++ writeString name ++ layout.colon
      ++ writeAt (level + 1) value ++ writeMembers (level + 1) rest
      ++ layout.lineBreak level ++ "\x7d"

/-- The items of an array behind its first one. -/
def writeItems (level : Nat) : List Json → String
  | [] => ""
  | item :: rest => "," ++ layout.lineBreak level ++ writeAt level item ++ writeItems level rest

/-- The members of an object behind its first one. -/
def writeMembers (level : Nat) : List (String × Json) → String
  | [] => ""
  | (name, value) :: rest =>
    "," ++ layout.lineBreak level ++ writeString name ++ layout.colon ++ writeAt level value
      ++ writeMembers level rest

end

/-- The text of a value. -/
def write (j : Json) : String := writeAt layout 0 j

end

/-- The text of a value on one line. -/
def compact (j : Json) : String := write .compact j

/-- The text of a value with every item on a line of its own, indented by `n` spaces a level. -/
def indented (n : Nat) (j : Json) : String := write (.indented n) j

end Json

end BraceMarkup
