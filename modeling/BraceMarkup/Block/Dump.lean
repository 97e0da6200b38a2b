/-
  The structure of a block, written out for a reader who wants to see it.

  Every node stands on lines of its own, with its parts named and indented
  below it, and every text quoted.

  * `Block.dump`: the lines of a block.
-/
import BraceMarkup.Block
import BraceMarkup.Text.Quoted

namespace BraceMarkup

namespace Dump

/-- A new line, with four spaces for each level. -/
def line (level : Nat) : String := "\n" ++ String.ofList (List.replicate (4 * level) ' ')

/-- Something on a line of its own between an opening and a closing text. -/
def between (level : Nat) (opening closing inner : String) : String :=
  opening ++ line (level + 1) ++ inner ++ "," ++ line level ++ closing

/-- Items between brackets, each on a line of its own; `level` is that of the brackets. -/
def bracketed (level : Nat) (items : List String) : String :=
  if items.isEmpty then "[]"
  else
    "[" ++ String.join (items.map fun item => line (level + 1) ++ item ++ ",") ++ line level
      ++ "]"

end Dump

open Dump

mutual

/-- The lines of a node. -/
def Node.dump (level : Nat) : Node → String
  | .text s =>
    between level "Text(" ")" <|
      between (level + 1) "TextNode \x7b" "\x7d" ("text: " ++ Text.quoted s)
  | .element name arguments =>
    between level "Element(" ")" <|
      between (level + 1) "ElementNode \x7b" "\x7d" <|
        "name: " ++ Text.quoted name ++ "," ++ line (level + 2) ++ "arguments: "
          ++ bracketed (level + 2) (Node.dumpArguments (level + 3) arguments)

/-- The lines of each node of a block. -/
def Node.dumpNodes (level : Nat) : Block → List String
  | [] => []
  | node :: rest => node.dump level :: Node.dumpNodes level rest

/-- The lines of each argument. -/
def Node.dumpArguments (level : Nat) : List Block → List String
  | [] => []
  | block :: rest =>
    between level "Block(" ")" (bracketed (level + 1) (Node.dumpNodes (level + 2) block))
      :: Node.dumpArguments level rest

end

/-- The lines of a block. -/
def Block.dump (b : Block) : String :=
  between 0 "Block(" ")" (bracketed 1 (Node.dumpNodes 2 b)) ++ "\n"

end BraceMarkup
