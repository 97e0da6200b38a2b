/-
  Blocks as JSON.

  A block is an array of nodes.  A node is an object whose member `type` says
  what it is: a `text` with its `text`, or an `element` with its `name` and its
  `args`, an array of blocks.

  A reader of this form is more generous than its writer.  The members of a
  node may come in any order and among others, though none of a node's own
  twice.  A node may also be an array of its `type` and its parts.  Below the
  outermost block the `type` may be given as a number: 0 for a text and 1 for
  an element.

  * `Block.toJson`: the JSON value of a block;
  * `Block.ofJson?`: the block that a JSON value stands for;
  * `Block.readJson?`: the block that a JSON text stands for.
-/
import BraceMarkup.Block
import BraceMarkup.Json.Reader

namespace BraceMarkup

/-! ## Writing -/

mutual

/-- A node as JSON. -/
def Node.toJson : Node → Json
  | .text s => .object [("type", .string "text"), ("text", .string s)]
  | .element name arguments =>
    .object [("type", .string "element"), ("name", .string name),
      ("args", .array (Node.argumentsToJson arguments))]

/-- The nodes of a block as JSON. -/
def Node.blockToJson : Block → List Json
  | [] => []
  | node :: rest => node.toJson :: Node.blockToJson rest

/-- Arguments as JSON. -/
def Node.argumentsToJson : List Block → List Json
  | [] => []
  | block :: rest => .array (Node.blockToJson block) :: Node.argumentsToJson rest

end

/-- A block as JSON. -/
def Block.toJson (b : Block) : Json := .array (Node.blockToJson b)

/-! ## Reading -/

/-- What the `type` of a node says it is. -/
inductive NodeTag where
  | text
  | element
  deriving Repr, DecidableEq

/-- The tag that a JSON value stands for.  Numbers are understood only in a nested node. -/
def NodeTag.ofJson? (nested : Bool) : Json → Option NodeTag
  | .string "text" => some .text
  | .string "element" => some .element
  | .number (.natural 0) => if nested then some .text else none
  | .number (.natural 1) => if nested then some .element else none
  | _ => none

/-- The value of the only member of a name; nothing if there is none, or more than one. -/
def uniqueMember? (name : String) (members : List (String × Json)) : Option Json :=
  match members.filter (·.1 = name) with
  | [(_, value)] => some value
  | _ => none

/-- The text that a JSON value is. -/
def Json.string? : Json → Option String
  | .string s => some s
  | _ => none

/-- The items of the array that a JSON value is. -/
def Json.array? : Json → Option (List Json)
  | .array items => some items
  | _ => none

/-- The parts of a node in order: its tag, and then its text, or its name and its arguments. -/
def nodeParts? (nested : Bool) : Json → Option (NodeTag × List Json)
  | .object members => do
    match ← NodeTag.ofJson? nested (← uniqueMember? "type" members) with
    | .text => return (.text, [← uniqueMember? "text" members])
    | .element =>
      return (.element, [← uniqueMember? "name" members, ← uniqueMember? "args" members])
  | .array (tag :: parts) => do return (← NodeTag.ofJson? nested tag, parts)
  | _ => none

/-- The node that a JSON value stands for.  The fuel bounds how deep nodes are nested. -/
def Node.ofJson? (fuel : Nat) (nested : Bool) (j : Json) : Option Node :=
  match fuel with
  | 0 => none
  | fuel + 1 => do
    match ← nodeParts? nested j with
    | (.text, [s]) => return .text (← s.string?)
    | (.element, [name, arguments]) =>
      let blocks ← (← arguments.array?).mapM fun block => do
        (← block.array?).mapM (Node.ofJson? fuel true)
      return .element (← name.string?) blocks
    | _ => none

/-- The block that a JSON value stands for, if its nodes are nested less than `fuel` deep. -/
def Block.ofJson? (fuel : Nat) (j : Json) : Option Block := do
  (← j.array?).mapM (Node.ofJson? fuel false)

/-- The block that a JSON text stands for.  The nesting of the text bounds that of the nodes. -/
def Block.readJson? (text : String) : Option Block := do
  Block.ofJson? Json.maxDepth (← Json.read? Json.maxDepth text)

end BraceMarkup
