/-
  Blocks are read back from their JSON.

  Every element adds three arrays and objects to the nesting of the JSON value:
  its own object, the array of its arguments, and the array of one argument.  A
  reader refuses a text that is nested too deep, so a block whose elements are
  nested deeply can be written as JSON but not read back.

  * `Node.ofJson?_toJson`: a node is read back from its JSON value;
  * `Block.depth_toJson`: the nesting of a block's JSON value, by the nesting
    of its elements;
  * `Block.readJson?_write`: a block is read back from its JSON text, in any
    layout, exactly if the text is not nested too deep;
  * `Block.readJson?_render`: **which blocks are read back from their JSON
    formats**.
-/
import BraceMarkup.Proofs.Json.ReadBack
import BraceMarkup.Proofs.Source.Written
import BraceMarkup.Format
import Mathlib.Control.Monad.Basic

namespace BraceMarkup

/-! ## The JSON value of a block -/

mutual

/-- No number stands in the JSON value of a node. -/
theorem Node.numberless_toJson : ∀ node : Node, node.toJson.Numberless
  | .text _ => ⟨trivial, trivial, trivial⟩
  | .element _ arguments =>
    ⟨trivial, trivial, Node.numberless_argumentsToJson arguments, trivial⟩

theorem Node.numberless_blockToJson : ∀ b : Block, Json.NumberlessItems (Node.blockToJson b)
  | [] => trivial
  | node :: rest => ⟨node.numberless_toJson, Node.numberless_blockToJson rest⟩

theorem Node.numberless_argumentsToJson :
    ∀ blocks : List Block, Json.NumberlessItems (Node.argumentsToJson blocks)
  | [] => trivial
  | block :: rest => ⟨Node.numberless_blockToJson block, Node.numberless_argumentsToJson rest⟩

end

@[simp] theorem Node.depth_toJson_text (s : String) : (Node.text s).toJson.depth = 1 := rfl

@[simp] theorem Node.depth_toJson_element (name : String) (arguments : List Block) :
    (Node.element name arguments).toJson.depth =
      2 + Json.depthItems (Node.argumentsToJson arguments) := by
  simp only [Node.toJson, Json.depth, Json.depthMembers]
  omega

mutual

/-- Every element adds three levels to the nesting of the JSON value. -/
theorem Node.depth_toJson : ∀ node : Node,
    3 * node.nesting ≤ node.toJson.depth + 1 ∧ node.toJson.depth ≤ 3 * node.nesting + 1
  | .text s => by simp [Node.nesting]
  | .element name arguments => by
    obtain ⟨hle, hge⟩ := Node.depth_argumentsToJson arguments
    rw [Node.depth_toJson_element, Node.nesting]
    omega

/-- The nesting of the JSON values of the nodes of a block. -/
theorem Node.depth_blockToJson : ∀ b : Block,
    3 * Block.nesting b ≤ Json.depthItems (Node.blockToJson b) + 1 ∧
      Json.depthItems (Node.blockToJson b) ≤ 3 * Block.nesting b + 1
  | [] => by simp [Node.blockToJson, Json.depthItems, Block.nesting]
  | node :: rest => by
    obtain ⟨hle, hge⟩ := node.depth_toJson
    obtain ⟨hle', hge'⟩ := Node.depth_blockToJson rest
    rw [Node.blockToJson, Json.depthItems, Block.nesting]
    omega

/-- The nesting of the JSON values of some arguments. -/
theorem Node.depth_argumentsToJson : ∀ blocks : List Block,
    3 * Node.nestingArguments blocks ≤ Json.depthItems (Node.argumentsToJson blocks) ∧
      Json.depthItems (Node.argumentsToJson blocks) ≤ 3 * Node.nestingArguments blocks + 2
  | [] => by simp [Node.argumentsToJson, Json.depthItems, Node.nestingArguments]
  | block :: rest => by
    obtain ⟨hle, hge⟩ := Node.depth_blockToJson block
    obtain ⟨hle', hge'⟩ := Node.depth_argumentsToJson rest
    rw [Node.argumentsToJson, Json.depthItems, Json.depth, Node.nestingArguments]
    omega

end

/-- The nesting of the JSON value of a block, by how deeply its elements are nested. -/
theorem Block.depth_toJson (b : Block) :
    3 * Block.nesting b ≤ b.toJson.depth ∧ b.toJson.depth ≤ 3 * Block.nesting b + 2 := by
  obtain ⟨hle, hge⟩ := Node.depth_blockToJson b
  rw [Block.toJson, Json.depth]
  omega

/-! ## Reading it back -/

theorem nodeParts?_text (nested : Bool) (s : String) :
    nodeParts? nested (Node.text s).toJson = some (.text, [.string s]) := by
  cases nested <;> rfl

theorem nodeParts?_element (nested : Bool) (name : String) (arguments : List Block) :
    nodeParts? nested (Node.element name arguments).toJson =
      some (.element, [.string name, .array (Node.argumentsToJson arguments)]) := by
  cases nested <;> rfl

mutual

/-- A node is read back from its JSON value, if there is fuel for its nesting. -/
theorem Node.ofJson?_toJson : ∀ (node : Node) (nested : Bool) {fuel : Nat},
    node.toJson.depth ≤ fuel → Node.ofJson? fuel nested node.toJson = some node
  | .text s, nested, 0, hfuel => by simp at hfuel
  | .text s, nested, fuel + 1, _ => by
    simp [Node.ofJson?, nodeParts?_text, Json.string?]
  | .element name arguments, nested, 0, hfuel => by simp at hfuel
  | .element name arguments, nested, fuel + 1, hfuel => by
    rw [Node.depth_toJson_element] at hfuel
    have harguments := Node.ofJson?_argumentsToJson arguments (by omega : _ ≤ fuel + 1)
    simp only [Node.ofJson?, nodeParts?_element, Json.string?, Option.bind_eq_bind,
      Option.bind_some, Json.array?] at harguments ⊢
    rw [harguments]
    rfl

/-- The nodes of a block are read back. -/
theorem Node.ofJson?_blockToJson : ∀ (b : Block) (nested : Bool) {fuel : Nat},
    Json.depthItems (Node.blockToJson b) ≤ fuel →
    (Node.blockToJson b).mapM (Node.ofJson? fuel nested) = some b
  | [], _, _, _ => rfl
  | node :: rest, nested, fuel, hfuel => by
    rw [Node.blockToJson, Json.depthItems] at hfuel
    rw [Node.blockToJson, List.mapM_cons, node.ofJson?_toJson nested (by omega),
      Node.ofJson?_blockToJson rest nested (by omega)]
    rfl

/-- Arguments are read back. -/
theorem Node.ofJson?_argumentsToJson : ∀ (blocks : List Block) {fuel : Nat},
    Json.depthItems (Node.argumentsToJson blocks) ≤ fuel + 1 →
    ((Node.argumentsToJson blocks).mapM fun block => do
      (← block.array?).mapM (Node.ofJson? fuel true)) = some blocks
  | [], _, _ => rfl
  | block :: rest, fuel, hfuel => by
    rw [Node.argumentsToJson, Json.depthItems, Json.depth] at hfuel
    have hblock : ((Json.array (Node.blockToJson block)).array? >>= fun items =>
        items.mapM (Node.ofJson? fuel true)) = some block :=
      Node.ofJson?_blockToJson block true (by omega)
    rw [Node.argumentsToJson, List.mapM_cons, hblock,
      Node.ofJson?_argumentsToJson rest (by omega)]
    rfl

end

/-- A block is read back from its JSON value. -/
theorem Block.ofJson?_toJson {b : Block} {fuel : Nat} (h : b.toJson.depth ≤ fuel) :
    Block.ofJson? fuel b.toJson = some b := by
  rw [Block.toJson, Json.depth] at h
  exact Node.ofJson?_blockToJson b false (by omega)

/-- A block is read back from its JSON text exactly if the text is not nested too deep. -/
theorem Block.readJson?_write {layout : Json.Layout} (hl : layout.Blank) (b : Block) :
    Block.readJson? (Json.write layout b.toJson) =
      if b.toJson.depth ≤ Json.maxDepth then some b else none := by
  have hnumberless : b.toJson.Numberless := Node.numberless_blockToJson b
  have hread := Json.read?_write hl hnumberless Json.maxDepth
  rw [Block.readJson?, hread]
  by_cases h : b.toJson.depth ≤ Json.maxDepth
  · rw [if_pos h, if_pos h]
    exact Block.ofJson?_toJson h
  · rw [if_neg h, if_neg h]
    rfl

/-- The two formats that are JSON differ in their layout. -/
theorem Format.render_json {f : Format} (hf : f = .json ∨ f = .jsonInline) :
    ∃ layout : Json.Layout, layout.Blank ∧ ∀ b, f.render b = .ok (Json.write layout b.toJson) := by
  rcases hf with rfl | rfl
  · exact ⟨.indented 4, Json.Layout.blank_indented 4, fun _ => rfl⟩
  · exact ⟨.compact, Json.Layout.blank_compact, fun _ => rfl⟩

/-- **Which blocks are read back from their JSON formats**: exactly those whose JSON value is nested
    no deeper than a reader allows.  A block whose elements are nested 41 deep is always among
    them, and one whose elements are nested 43 deep never is. -/
theorem Block.readJson?_render (b : Block) {f : Format} (hf : f = .json ∨ f = .jsonInline) :
    ∃ text, f.render b = .ok text ∧
      Block.readJson? text = (if b.toJson.depth ≤ Json.maxDepth then some b else none) ∧
      3 * Block.nesting b ≤ b.toJson.depth ∧ b.toJson.depth ≤ 3 * Block.nesting b + 2 := by
  obtain ⟨layout, hlayout, hrender⟩ := Format.render_json hf
  exact ⟨_, hrender b, Block.readJson?_write hlayout b, b.depth_toJson⟩

/-- Both formats of a small block are read back. -/
theorem Block.readJson?_render_pair :
    ∃ b text short, b = [.text "a", .element "b" [[.text "c"], []]] ∧
      Format.json.render b = .ok text ∧ Block.readJson? text = some b ∧
      Format.jsonInline.render b = .ok short ∧ Block.readJson? short = some b := by
  obtain ⟨text, htext, hread, -⟩ :=
    Block.readJson?_render [.text "a", .element "b" [[.text "c"], []]] (.inl rfl)
  obtain ⟨short, hshort, hread', -⟩ :=
    Block.readJson?_render [.text "a", .element "b" [[.text "c"], []]] (.inr rfl)
  exact ⟨_, text, short, rfl, htext, hread, hshort, hread'⟩

/-- A text inside of elements, one inside of the other. -/
def Block.nested : Nat → Block
  | 0 => [.text "x"]
  | n + 1 => [.element "a" [Block.nested n]]

theorem Block.nesting_nested (n : Nat) : Block.nesting (Block.nested n) = n := by
  induction n with
  | zero => rfl
  | succ n ih => simp [Block.nested, Block.nesting, Node.nesting, Node.nestingArguments, ih]; omega

theorem Block.depth_toJson_nested (n : Nat) : (Block.nested n).toJson.depth = 3 * n + 2 := by
  induction n with
  | zero => rfl
  | succ n ih =>
    rw [Block.toJson, Json.depth] at ih ⊢
    simp [Block.nested, Node.blockToJson, Node.argumentsToJson, Json.depthItems, Json.depth, ih]
    omega

/-- A text inside of 43 elements is read from its source, but from neither of its JSON formats. -/
theorem Block.readJson?_render_nested : ∃ b, Block.nesting b ≤ 128 ∧
    Block.ofSource (String.join (List.replicate 43 "#a\x7b") ++ "x" ++
      String.join (List.replicate 43 "\x7d")) = .ok b ∧
    ∀ f ∈ [Format.json, Format.jsonInline], ∃ text, f.render b = .ok text ∧
      Block.readJson? text = none := by
  refine ⟨Block.nested 43, by simp [Block.nesting_nested], by decide +kernel, ?_⟩
  intro f hf
  obtain ⟨layout, hlayout, hrender⟩ := Format.render_json (f := f) (by simpa using hf)
  refine ⟨_, hrender _, ?_⟩
  rw [Block.readJson?_write hlayout, Block.depth_toJson_nested, if_neg (by decide)]

end BraceMarkup
