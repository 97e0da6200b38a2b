/-
  The parse tree of a sequence of tokens.

  A parse tree keeps the tokens it was read from.  Its nodes are text tokens,
  and elements: a name token followed by the element's arguments, each between
  the tokens that open and close it.

  * `ParseNode`, `ParseBlock`: the types; `ParseBlock.toBlock`: the tree
    without its tokens; `ParseBlock.flatten`: the tokens of a tree;
  * `ParseNode.readElement`, `ParseNode.readArguments`,
    `ParseBlock.readArgument`, `ParseBlock.readContent`: an element, its
    arguments, one of them, and what stands in it, each read off the front of a
    sequence of tokens by recursive descent;
  * `ParseBlock.ofTokens`: the tree of a sequence up to its end token.
-/
import BraceMarkup.Token
import BraceMarkup.Block

namespace BraceMarkup

/-! ## Trees -/

/-- Something between two tokens. -/
structure Enclosed (α : Type) where
  first : Token
  children : List α
  last : Token
  deriving Repr

/-- A text token and its text, or the name token of an element, the name and the arguments. -/
inductive ParseNode where
  | text (token : Token) (text : String)
  | element (token : Token) (name : String) (arguments : List (Enclosed ParseNode))
  deriving Repr

/-- A whole document, from its first token to its end token, or an argument between the braces
    that open and close it. -/
abbrev ParseBlock := Enclosed ParseNode

mutual

/-- A node without its tokens. -/
def ParseNode.toNode : ParseNode → Node
  | .text _ text => .text text
  | .element _ name arguments => .element name (ParseNode.toArguments arguments)

/-- Nodes without their tokens. -/
def ParseNode.toNodes : List ParseNode → Block
  | [] => []
  | node :: rest => node.toNode :: ParseNode.toNodes rest

/-- A block without its tokens. -/
def ParseBlock.toBlock : ParseBlock → Block
  | ⟨_, children, _⟩ => ParseNode.toNodes children

/-- Arguments without their tokens. -/
def ParseNode.toArguments : List ParseBlock → List Block
  | [] => []
  | argument :: rest => ParseBlock.toBlock argument :: ParseNode.toArguments rest

end

mutual

/-- The tokens of a node, in the order of the text. -/
def ParseNode.flatten : ParseNode → List Token
  | .text token _ => [token]
  | .element token _ arguments => token :: ParseNode.flattenArguments arguments

/-- The tokens of some nodes, in the order of the text. -/
def ParseNode.flattenNodes : List ParseNode → List Token
  | [] => []
  | node :: rest => node.flatten ++ ParseNode.flattenNodes rest

/-- The tokens of an argument, its braces included. -/
def ParseBlock.flattenArgument : ParseBlock → List Token
  | ⟨first, children, last⟩ => first :: ParseNode.flattenNodes children ++ [last]

/-- The tokens of some arguments, in the order of the text. -/
def ParseNode.flattenArguments : List ParseBlock → List Token
  | [] => []
  | argument :: rest => ParseBlock.flattenArgument argument ++ ParseNode.flattenArguments rest

end

/-- The tokens of a whole document, its end token included. -/
def ParseBlock.flatten (b : ParseBlock) : List Token :=
  ParseNode.flattenNodes b.children ++ [b.last]

@[simp] theorem ParseNode.toNodes_append (ns ms : List ParseNode) :
    ParseNode.toNodes (ns ++ ms) = ParseNode.toNodes ns ++ ParseNode.toNodes ms := by
  induction ns with
  | nil => rfl
  | cons n ns ih => simp [ParseNode.toNodes, ih]

@[simp] theorem ParseNode.flattenNodes_append (ns ms : List ParseNode) :
    ParseNode.flattenNodes (ns ++ ms) = ParseNode.flattenNodes ns ++ ParseNode.flattenNodes ms := by
  induction ns with
  | nil => rfl
  | cons n ns ih => simp [ParseNode.flattenNodes, ih]

/-! ## Faults -/

/-- What may stand where an unexpected token was found. -/
inductive Expectation where
  /-- Outside of all arguments. -/
  | textOrElement
  /-- Where an element begins. -/
  | elementName
  /-- Where an argument begins. -/
  | argumentOpen
  /-- Inside an argument. -/
  | textElementOrClose
  deriving Repr, DecidableEq

/-- The expectation in words. -/
def Expectation.describe : Expectation → String
  | textOrElement => "text or element"
  | elementName => "element name"
  | argumentOpen => "argument open"
  | textElementOrClose => "text, element or argument close"

/-- How many elements may be nested. -/
def maxNesting : Nat := 128

/-- What can be wrong with a sequence of tokens. -/
inductive ParseError.Kind where
  | emptyInput
  | unexpectedToken (expected : Expectation) (found : Token.Kind)
  | unbalancedBlock
  | mismatchedClose (opening closing : String)
  | missingEndOfInput
  | nestingTooDeep
  deriving Repr, DecidableEq

/-- A fault in a sequence of tokens, with its position in the text. -/
structure ParseError where
  kind : ParseError.Kind
  position : Position
  deriving Repr, DecidableEq

/-- The fault in words, without its position. -/
def ParseError.Kind.describe : ParseError.Kind → String
  | emptyInput => "empty token stream"
  | unexpectedToken expected found => "expected " ++ expected.describe ++ ", got " ++ found.describe
  | unbalancedBlock => "unbalanced block"
  | mismatchedClose opening closing =>
    "argument opened with '" ++ opening ++ "' closed with '" ++ closing ++ "'"
  | missingEndOfInput => "missing end of input"
  | nestingTooDeep => "elements nested more than " ++ toString maxNesting ++ " levels deep"

/-- The fault and its position in words. -/
def ParseError.message (e : ParseError) : String :=
  e.kind.describe ++ " at " ++ e.position.describe

/-! ## Reading tokens -/

/-- The name of an element, as its token has it: without the `#` in front. -/
def elementName (token : Token) : String :=
  match token.text.toList with
  | '#' :: name => String.ofList name
  | _ => token.text

/-- The node of a text token. -/
abbrev ParseNode.ofText (token : Token) : ParseNode := .text token token.text

/-- The next token opens an argument. -/
def opensArgument (tokens : List Token) : Bool :=
  match tokens with
  | [] => false
  | token :: _ => token.kind = .argumentOpen

/-- Something that was read, and the tokens behind it, of which there are fewer than `bound`. -/
structure Reading (α : Type) (bound : Nat) where
  value : α
  rest : List Token
  fewer : rest.length < bound

/-- The position of the last token of a sequence. -/
def endPosition (tokens : List Token) : Position :=
  (tokens.getLast?.map (·.position)).getD .start

mutual

/-- The element at the front of some tokens, inside of `depth` others.  The whole sequence of tokens
    ends at `ending`. -/
def ParseNode.readElement (ending : Position) (depth : Nat) (tokens : List Token) :
    Except ParseError (Reading ParseNode tokens.length) :=
  match tokens with
  | [] => .error ⟨.missingEndOfInput, ending⟩
  | token :: rest =>
    if token.kind ≠ .elementName then
      .error ⟨.unexpectedToken .elementName token.kind, token.position⟩
    else if depth = maxNesting then .error ⟨.nestingTooDeep, token.position⟩
    else do
      let arguments ← ParseNode.readArguments ending (depth + 1) [] rest (Nat.lt_add_one _)
      return ⟨.element token (elementName token) arguments.value, arguments.rest, arguments.fewer⟩
termination_by 2 * tokens.length

/-- The arguments of an element, as long as there is one more; `arguments` are those before, last
    first. -/
def ParseNode.readArguments (ending : Position) (depth : Nat) (arguments : List ParseBlock)
    (tokens : List Token) {bound : Nat} (h : tokens.length < bound) :
    Except ParseError (Reading (List ParseBlock) bound) :=
  if opensArgument tokens then do
    let argument ← ParseBlock.readArgument ending depth tokens
    ParseNode.readArguments ending depth (argument.value :: arguments) argument.rest
      (Nat.lt_trans argument.fewer h)
  else return ⟨arguments.reverse, tokens, h⟩
termination_by 2 * tokens.length + 1
decreasing_by
  · omega
  · have := argument.fewer
    omega

/-- The argument at the front of some tokens, inside of `depth` elements. -/
def ParseBlock.readArgument (ending : Position) (depth : Nat) (tokens : List Token) :
    Except ParseError (Reading ParseBlock tokens.length) :=
  match tokens with
  | [] => .error ⟨.unbalancedBlock, ending⟩
  | opening :: rest =>
    if opening.kind ≠ .argumentOpen then
      .error ⟨.unexpectedToken .argumentOpen opening.kind, opening.position⟩
    else ParseBlock.readContent ending depth opening [] rest (Nat.lt_add_one _)
termination_by 2 * tokens.length

/-- The rest of an argument up to the token that closes it; `nodes` are those before, last first. -/
def ParseBlock.readContent (ending : Position) (depth : Nat) (opening : Token)
    (nodes : List ParseNode) (tokens : List Token) {bound : Nat} (h : tokens.length < bound) :
    Except ParseError (Reading ParseBlock bound) :=
  match tokens with
  | [] => .error ⟨.unbalancedBlock, opening.position⟩
  | token :: rest =>
    match token.kind with
    | .argumentClose =>
      if token.text.utf8ByteSize ≠ opening.text.utf8ByteSize then
        .error ⟨.mismatchedClose opening.text token.text, token.position⟩
      else return ⟨⟨opening, nodes.reverse, token⟩, rest, Nat.lt_of_succ_lt h⟩
    | .text =>
      ParseBlock.readContent ending depth opening (.ofText token :: nodes) rest
        (Nat.lt_of_succ_lt h)
    | .elementName => do
      let element ← ParseNode.readElement ending depth (token :: rest)
      ParseBlock.readContent ending depth opening (element.value :: nodes) element.rest
        (Nat.lt_trans element.fewer h)
    | .endOfInput => .error ⟨.unbalancedBlock, opening.position⟩
    | .argumentOpen => .error ⟨.unexpectedToken .textElementOrClose token.kind, token.position⟩
termination_by 2 * tokens.length + 1
decreasing_by
  · simp
  · simp
  · have := element.fewer
    simp only [List.length_cons] at this ⊢
    omega

end

/-- The rest of a document up to its end token; `nodes` are those before, last first. -/
def ParseBlock.readDocument (first : Token) (ending : Position) (nodes : List ParseNode)
    (tokens : List Token) : Except ParseError ParseBlock :=
  match tokens with
  | [] => .error ⟨.missingEndOfInput, ending⟩
  | token :: rest =>
    match token.kind with
    | .text => ParseBlock.readDocument first ending (.ofText token :: nodes) rest
    | .elementName => do
      let element ← ParseNode.readElement ending 0 (token :: rest)
      ParseBlock.readDocument first ending (element.value :: nodes) element.rest
    | .endOfInput => return ⟨first, nodes.reverse, token⟩
    | .argumentOpen | .argumentClose =>
      .error ⟨.unexpectedToken .textOrElement token.kind, token.position⟩
termination_by tokens.length
decreasing_by
  · simp
  · exact element.fewer

/-- The tree of a sequence of tokens.  Tokens behind the end token play no part. -/
def ParseBlock.ofTokens (tokens : List Token) : Except ParseError ParseBlock :=
  match tokens with
  | [] => .error ⟨.emptyInput, .start⟩
  | first :: _ => ParseBlock.readDocument first (endPosition tokens) [] tokens

end BraceMarkup
