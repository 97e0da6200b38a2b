/-
  Variables from outside of a template.

  * `Value.contextOfJson`: variables from the members of a JSON object, or the
    name of the first member that stands for no value;
  * `readAssignment?`: a variable from a text `NAME=VALUE`.
-/
import BraceMarkup.Entries
import BraceMarkup.Value
import BraceMarkup.Text.Blank

namespace BraceMarkup

/-- The values of some members, in their order. -/
def Value.ofJsonMembers :
    List (String × Json) → Except (String × Value.JsonError) (List (String × Value))
  | [] => .ok []
  | (name, json) :: rest =>
    match Value.ofJson json with
    | .error e => .error (name, e)
    | .ok value => do return (name, value) :: (← Value.ofJsonMembers rest)

/-- Variables from the members of a JSON object, in the order of their names.  Of members with the
    same name the last one counts. -/
def Value.contextOfJson (members : List (String × Json)) :
    Except (String × Value.JsonError) (List (String × Value)) :=
  Value.ofJsonMembers (Entries.ofList members)

/-- A variable from its name and its value with an equals sign between them.  The name is trimmed;
    the value is a literal if it reads as one, and otherwise text. -/
def readAssignment? (s : String) : Option (String × Value) :=
  let cs := s.toList
  match cs.dropWhile (· != '=') with
  | '=' :: value =>
    let name := Text.trim (String.ofList (cs.takeWhile (· != '=')))
    let value := String.ofList value
    some (name, (Value.literal? value).getD (.text value))
  | _ => none

end BraceMarkup
