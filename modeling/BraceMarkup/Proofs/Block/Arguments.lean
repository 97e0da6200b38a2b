/-
  The arguments in a block.

  A block has levels: the block itself, and every argument in it, at any depth.

  * `Block.allArguments`: the arguments in a block, at any depth;
  * `Block.allArguments_cons`, `Block.allArguments_element`: those in the first
    node and in the rest, and those of an element and in its arguments;
  * `Block.preorder_subset`, `Block.preorder_argument_subset`: the nodes in an
    element, and in an argument;
  * `Block.allArguments_mapText`: the arguments in a rewritten block;
  * `Block.mapText_eq_self`: a block whose texts are rewritten to themselves;
  * `Block.mapText_mapText`: a block that is rewritten twice;
  * `Block.elementNames`: the names of the elements in a block, at any depth.
-/
import BraceMarkup.Block

namespace BraceMarkup

/-- The arguments of a node, if it is an element. -/
def Node.directArguments : Node → List Block
  | .text _ => []
  | .element _ arguments => arguments

/-- The arguments in a block, at any depth. -/
def Block.allArguments (b : Block) : List Block := b.preorder.flatMap Node.directArguments

theorem Block.allArguments_cons (node : Node) (rest : Block) :
    Block.allArguments (node :: rest) = Block.allArguments [node] ++ Block.allArguments rest := by
  simp [Block.allArguments, Block.preorder]

theorem Block.allArguments_element (name : String) (arguments : List Block) :
    Block.allArguments [.element name arguments] =
      arguments ++ arguments.flatMap Block.allArguments := by
  have hrest : (Node.preorderArguments arguments).flatMap Node.directArguments =
      arguments.flatMap Block.allArguments := by
    induction arguments with
    | nil => rfl
    | cons b bs ih =>
      rw [Node.preorderArguments, List.flatMap_append, ih, List.flatMap_cons, Block.allArguments]
  simp [Block.allArguments, Block.preorder, Node.preorder, Node.directArguments, hrest]

/-- The arguments in an element are arguments in the block that it stands in. -/
theorem Block.allArguments_subset {b : Block} {name : String} {arguments : List Block}
    (h : (name, arguments) ∈ b.elements) :
    Block.allArguments [.element name arguments] ⊆ b.allArguments := by
  induction b with
  | nil => cases h
  | cons node rest ih =>
    rw [Block.allArguments_cons node rest]
    cases node with
    | text s => exact List.Subset.trans (ih h) (List.subset_append_right _ _)
    | element other others =>
      rcases List.mem_cons.1 h with heq | h
      · cases heq
        exact List.subset_append_left _ _
      · exact List.Subset.trans (ih h) (List.subset_append_right _ _)

/-- The nodes in an element are nodes in the block that it stands in. -/
theorem Block.preorder_subset {b : Block} {name : String} {arguments : List Block}
    (h : (name, arguments) ∈ b.elements) :
    Block.preorder [.element name arguments] ⊆ b.preorder := by
  induction b with
  | nil => cases h
  | cons node rest ih =>
    cases node with
    | text s => exact List.Subset.trans (ih h) (List.subset_append_right _ _)
    | element other others =>
      rcases List.mem_cons.1 h with heq | h
      · cases heq
        simp [Block.preorder]
      · exact List.Subset.trans (ih h) (List.subset_append_right _ _)

/-- The nodes in an argument are nodes in its element. -/
theorem Block.preorder_argument_subset {b : Block} {name : String} {arguments : List Block}
    (h : b ∈ arguments) : b.preorder ⊆ Block.preorder [.element name arguments] := by
  suffices hsub : b.preorder ⊆ Node.preorderArguments arguments by
    intro node hnode
    simp [Block.preorder, Node.preorder, hsub hnode]
  induction arguments with
  | nil => cases h
  | cons first rest ih =>
    rcases List.mem_cons.1 h with rfl | h
    · exact List.subset_append_left _ _
    · exact List.Subset.trans (ih h) (List.subset_append_right _ _)

section
variable (f : String → String)

mutual

theorem Node.preorder_mapText : ∀ n : Node,
    (n.mapText f).preorder = n.preorder.map (Node.mapText f)
  | .text _ => rfl
  | .element _ arguments => by
    simp only [Node.mapText, Node.preorder, List.map_cons,
      Node.preorderArguments_mapText arguments]

theorem Block.preorder_mapText : ∀ b : Block,
    (Block.mapText f b).preorder = b.preorder.map (Node.mapText f)
  | [] => rfl
  | n :: rest => by
    simp only [Block.mapText, Block.preorder, List.map_append, Node.preorder_mapText n,
      Block.preorder_mapText rest]

theorem Node.preorderArguments_mapText : ∀ bs : List Block,
    Node.preorderArguments (Node.mapTextArguments f bs) =
      (Node.preorderArguments bs).map (Node.mapText f)
  | [] => rfl
  | b :: rest => by
    simp only [Node.mapTextArguments, Node.preorderArguments, List.map_append,
      Block.preorder_mapText b, Node.preorderArguments_mapText rest]

end

/-- The arguments in a rewritten block are those in the block, rewritten. -/
theorem Block.allArguments_mapText (b : Block) :
    (Block.mapText f b).allArguments = b.allArguments.map (Block.mapText f) := by
  have hdirect : ∀ n : Node, (n.mapText f).directArguments =
      n.directArguments.map (Block.mapText f) := by
    rintro (s | ⟨name, arguments⟩)
    · rfl
    · simp only [Node.mapText, Node.directArguments, Node.mapTextArguments_eq_map]
  simp only [Block.allArguments, Block.preorder_mapText, List.flatMap_map, List.map_flatMap,
    hdirect]

variable {f}

mutual

theorem Node.mapText_eq_self : ∀ n : Node, (∀ s, .text s ∈ n.preorder → f s = s) → n.mapText f = n
  | .text s, h => by rw [Node.mapText, h s (by simp [Node.preorder])]
  | .element _ arguments, h => by
    rw [Node.mapText, Node.mapTextArguments_eq_self arguments fun s hs => h s (by
      simp [Node.preorder, hs])]

/-- A block whose texts are rewritten to themselves stays as it is. -/
theorem Block.mapText_eq_self : ∀ b : Block, (∀ s, .text s ∈ b.preorder → f s = s) →
    Block.mapText f b = b
  | [], _ => rfl
  | n :: rest, h => by
    rw [Block.mapText, Node.mapText_eq_self n fun s hs => h s (List.mem_append_left _ hs),
      Block.mapText_eq_self rest fun s hs => h s (List.mem_append_right _ hs)]

theorem Node.mapTextArguments_eq_self : ∀ bs : List Block,
    (∀ s, .text s ∈ Node.preorderArguments bs → f s = s) → Node.mapTextArguments f bs = bs
  | [], _ => rfl
  | b :: rest, h => by
    rw [Node.mapTextArguments,
      Block.mapText_eq_self b fun s hs => h s (List.mem_append_left _ hs),
      Node.mapTextArguments_eq_self rest fun s hs => h s (List.mem_append_right _ hs)]

end

/-- A block that is rewritten twice, by a function that changes nothing the second time. -/
theorem Block.mapText_mapText (hf : ∀ s, f (f s) = f s) (b : Block) :
    Block.mapText f (Block.mapText f b) = Block.mapText f b := by
  refine Block.mapText_eq_self _ fun s hs => ?_
  rw [Block.preorder_mapText] at hs
  obtain ⟨node, -, hnode⟩ := List.mem_map.1 hs
  cases node with
  | text t =>
    cases hnode
    exact hf t
  | element => cases hnode

end

/-! ## Names of elements -/

/-- The name of a node, if it is an element. -/
def Node.elementName? : Node → Option String
  | .text _ => none
  | .element name _ => some name

/-- The names of the elements in a block, at any depth. -/
def Block.elementNames (b : Block) : List String := b.preorder.filterMap Node.elementName?

namespace Block

variable {b : Block} {name : String} {arguments : List Block}

theorem mem_elementNames {n : String} :
    n ∈ b.elementNames ↔ ∃ arguments, .element n arguments ∈ b.preorder := by
  rw [elementNames, List.mem_filterMap]
  constructor
  · rintro ⟨node, hnode, hname⟩
    cases node with
    | text s => cases hname
    | element name arguments =>
      cases hname
      exact ⟨arguments, hnode⟩
  · rintro ⟨arguments, h⟩
    exact ⟨_, h, rfl⟩

/-- The name of an element is one of the names in it. -/
theorem mem_elementNames_self (name : String) (arguments : List Block) :
    name ∈ elementNames [.element name arguments] :=
  mem_elementNames.2 ⟨arguments, by simp [preorder, Node.preorder]⟩

theorem elementNames_subset (h : (name, arguments) ∈ b.elements) :
    elementNames [.element name arguments] ⊆ b.elementNames :=
  List.filterMap_subset _ (preorder_subset h)

theorem elementNames_argument_subset (h : b ∈ arguments) :
    b.elementNames ⊆ elementNames [.element name arguments] :=
  List.filterMap_subset _ (preorder_argument_subset h)

/-- Rewriting texts leaves the names of elements alone. -/
theorem elementNames_mapText (f : String → String) (b : Block) :
    (mapText f b).elementNames = b.elementNames := by
  have hname : ∀ node : Node, (node.mapText f).elementName? = node.elementName? := by
    rintro (_ | _) <;> rfl
  simp only [elementNames, preorder_mapText, List.filterMap_map, Function.comp_def, hname]

end Block

end BraceMarkup
