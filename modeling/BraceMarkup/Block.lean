/-
  The tree of a marked-up text.

  A `Block` is a sequence of nodes: a whole document, or one argument of an
  element.  A node is a piece of text, or an element with its name and its
  arguments.

  * `Block.textContent`, `Block.elements`, `Block.firstElement?`,
    `Block.singleText?`: what stands directly in a block;
  * `Block.preorder`: all nodes of a tree, each before those in its arguments;
  * `Block.walk`: a visit to every node in that order;
  * `Block.mapText`: the same tree with every text rewritten.
-/

namespace BraceMarkup

/-- A piece of text, or an element with its arguments. -/
inductive Node where
  | text (content : String)
  | element (name : String) (arguments : List (List Node))
  deriving Repr, Inhabited

/-- A whole document, or one argument of an element. -/
abbrev Block := List Node

/-! ## Equality -/

mutual

/-- Decides whether two nodes are equal. -/
def Node.decideEq : (m n : Node) → Decidable (m = n)
  | .text s, .text t =>
    if h : s = t then isTrue (by rw [h]) else isFalse (by simp [h])
  | .text _, .element _ _ => isFalse (by simp)
  | .element _ _, .text _ => isFalse (by simp)
  | .element a as, .element b bs =>
    if h : a = b then
      match Node.decideEqArguments as bs with
      | isTrue hs => isTrue (by rw [h, hs])
      | isFalse hs => isFalse (by simp [hs])
    else isFalse (by simp [h])

/-- Decides whether two blocks are equal. -/
def Node.decideEqBlock : (as bs : List Node) → Decidable (as = bs)
  | [], [] => isTrue rfl
  | [], _ :: _ => isFalse (by simp)
  | _ :: _, [] => isFalse (by simp)
  | a :: as, b :: bs =>
    match Node.decideEq a b, Node.decideEqBlock as bs with
    | isTrue h, isTrue hs => isTrue (by rw [h, hs])
    | isFalse h, _ => isFalse (by simp [h])
    | _, isFalse hs => isFalse (by simp [hs])

/-- Decides whether two lists of arguments are equal. -/
def Node.decideEqArguments : (as bs : List (List Node)) → Decidable (as = bs)
  | [], [] => isTrue rfl
  | [], _ :: _ => isFalse (by simp)
  | _ :: _, [] => isFalse (by simp)
  | a :: as, b :: bs =>
    match Node.decideEqBlock a b, Node.decideEqArguments as bs with
    | isTrue h, isTrue hs => isTrue (by rw [h, hs])
    | isFalse h, _ => isFalse (by simp [h])
    | _, isFalse hs => isFalse (by simp [hs])

end

instance : DecidableEq Node := Node.decideEq

/-! ## What stands directly in a block -/

namespace Block

/-- The text of the direct text nodes, one after the other; elements are passed over. -/
def textContent : Block → String
  | [] => ""
  | .text s :: rest => s ++ textContent rest
  | .element _ _ :: rest => textContent rest

/-- The direct elements, each with its name and its arguments. -/
def elements : Block → List (String × List Block)
  | [] => []
  | .text _ :: rest => elements rest
  | .element name arguments :: rest => (name, arguments) :: elements rest

/-- The first of the direct elements. -/
def firstElement? (b : Block) : Option (String × List Block) := (elements b).head?

/-- The text of a block that consists of one text node and nothing else. -/
def singleText? : Block → Option String
  | [.text s] => some s
  | _ => none

end Block

/-! ## The whole tree -/

mutual

/-- A node, and then all nodes in its arguments. -/
def Node.preorder : Node → List Node
  | .text s => [.text s]
  | .element name arguments => .element name arguments :: Node.preorderArguments arguments

/-- All nodes of a block, each before those in its arguments. -/
def Block.preorder : Block → List Node
  | [] => []
  | node :: rest => node.preorder ++ Block.preorder rest

/-- All nodes of some arguments, one argument after the other. -/
def Node.preorderArguments : List Block → List Node
  | [] => []
  | block :: rest => Block.preorder block ++ Node.preorderArguments rest

end

section
variable {m : Type → Type} [Monad m] (visit : Node → m Unit)

mutual

/-- Visits a node, and then all nodes in its arguments. -/
def Node.walk : Node → m Unit
  | .text s => visit (.text s)
  | .element name arguments => do
    visit (.element name arguments)
    Node.walkArguments arguments

/-- Visits all nodes of a block, each before those in its arguments.  Where a visit fails, the walk
    ends. -/
def Block.walk : Block → m Unit
  | [] => pure ()
  | node :: rest => do
    node.walk
    Block.walk rest

/-- Visits all nodes of some arguments, one argument after the other. -/
def Node.walkArguments : List Block → m Unit
  | [] => pure ()
  | block :: rest => do
    Block.walk block
    Node.walkArguments rest

end

end

mutual

/-- A node with every text in it rewritten. -/
def Node.mapText (f : String → String) : Node → Node
  | .text s => .text (f s)
  | .element name arguments => .element name (Node.mapTextArguments f arguments)

/-- A block with every text at any depth rewritten; names stay. -/
def Block.mapText (f : String → String) : Block → Block
  | [] => []
  | node :: rest => node.mapText f :: Block.mapText f rest

/-- Arguments with every text in them rewritten. -/
def Node.mapTextArguments (f : String → String) : List Block → List Block
  | [] => []
  | block :: rest => Block.mapText f block :: Node.mapTextArguments f rest

end

@[simp] theorem Block.mapText_eq_map (f : String → String) (b : Block) :
    Block.mapText f b = b.map (Node.mapText f) := by
  induction b with
  | nil => rfl
  | cons n ns ih => simp [Block.mapText, ih]

@[simp] theorem Node.mapTextArguments_eq_map (f : String → String) (bs : List Block) :
    Node.mapTextArguments f bs = bs.map (Block.mapText f) := by
  induction bs with
  | nil => rfl
  | cons b bs ih => simp [Node.mapTextArguments, ih]

end BraceMarkup
