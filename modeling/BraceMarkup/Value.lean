/-
  Values of templates.

  A value is a text, a number, a boolean, a list of values, or a block that is
  evaluated only when the value is used.

  * `Value`, `Value.Kind`: the types; `Value.kind`: the kind of a value;
  * `Value.display`: the text of a value;
  * `Value.literal?`: the number or boolean that a text spells out;
  * `Value.toBool`, `Value.toList`: the boolean or the items of a value, or a
    `KindError` if it is of another kind;
  * `Value.ofJson`: the value that a JSON value stands for.
-/
import BraceMarkup.Block
import BraceMarkup.Json

namespace BraceMarkup

/-- A value that a template produces or uses. -/
inductive Value where
  | text (s : String)
  | number (x : Float)
  | boolean (b : Bool)
  | list (items : List Value)
  /-- A block that is evaluated when the value is used. -/
  | deferred (block : Block)
  deriving Repr, Inhabited

/-- The kinds of values. -/
inductive Value.Kind where
  | text
  | number
  | boolean
  | list
  | deferred
  deriving Repr, DecidableEq

/-- The kind in words. -/
def Value.Kind.describe : Value.Kind → String
  | text => "text"
  | number => "number"
  | boolean => "boolean"
  | list => "list"
  | deferred => "deferred block"

namespace Value

/-- The kind of a value. -/
def kind : Value → Kind
  | text _ => .text
  | number _ => .number
  | boolean _ => .boolean
  | list _ => .list
  | deferred _ => .deferred

/-! ## Text of a value -/

mutual

/-- The text of a value: a list has its items between brackets, a deferred block its direct
    text. -/
def display : Value → String
  | text s => s
  | number x => numberText x
  | boolean b => if b then "true" else "false"
  | list items => "[" ++ String.intercalate ", " (displayItems items) ++ "]"
  | deferred block => block.textContent

/-- The texts of some values. -/
def displayItems : List Value → List String
  | [] => []
  | item :: rest => display item :: displayItems rest

end

/-- The number or boolean that a text spells out. -/
def literal? (s : String) : Option Value :=
  match readNumber? s with
  | some x => some (number x)
  | none =>
    if s = "true" then some (boolean true)
    else if s = "false" then some (boolean false)
    else none

/-! ## Parts of a value -/

/-- The boolean that a value is. -/
def bool? : Value → Option Bool
  | boolean b => some b
  | _ => none

/-- The number that a value is. -/
def number? : Value → Option Float
  | number x => some x
  | _ => none

/-- The text that a value is. -/
def text? : Value → Option String
  | text s => some s
  | _ => none

/-- The items of the list that a value is. -/
def items? : Value → Option (List Value)
  | list items => some items
  | _ => none

end Value

/-- A value of one kind was needed, and one of another kind, or none at all, was found. -/
structure KindError where
  expected : Value.Kind
  found : Option Value.Kind
  deriving Repr, DecidableEq

/-- What was found, in words. -/
def KindError.foundText (e : KindError) : String :=
  match e.found with
  | some kind => kind.describe
  | none => "nothing"

/-- The error in words. -/
def KindError.message (e : KindError) : String :=
  "expected a " ++ e.expected.describe ++ " value, got " ++ e.foundText

/-- The boolean that a value is. -/
def Value.toBool : Value → Except KindError Bool
  | boolean b => .ok b
  | v => .error ⟨.boolean, some v.kind⟩

/-- The items of the list that a value is. -/
def Value.toList : Value → Except KindError (List Value)
  | list items => .ok items
  | v => .error ⟨.list, some v.kind⟩

/-! ## Values from JSON -/

/-- The kinds of JSON values that stand for no value of a template. -/
inductive Value.JsonError where
  | null
  | object
  deriving Repr, DecidableEq

/-- The error in words. -/
def Value.JsonError.message : Value.JsonError → String
  | null => "cannot use JSON null as a template value"
  | object => "cannot use JSON object as a template value"

mutual

/-- The value that a JSON value stands for.  Nulls and objects stand for none, nor does an array
    that holds one. -/
def Value.ofJson : Json → Except Value.JsonError Value
  | .null => .error .null
  | .boolean b => .ok (.boolean b)
  | .number n => .ok (.number n.toFloat)
  | .string s => .ok (.text s)
  | .array items => do return .list (← Value.ofJsonItems items)
  | .object _ => .error .object

/-- The values that the items of a JSON array stand for. -/
def Value.ofJsonItems : List Json → Except Value.JsonError (List Value)
  | [] => .ok []
  | item :: rest => do return (← Value.ofJson item) :: (← Value.ofJsonItems rest)

end

end BraceMarkup
