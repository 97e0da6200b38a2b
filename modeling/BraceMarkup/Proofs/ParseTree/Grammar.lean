/-
  Trees are read back from their tokens.

  * `Token.Names`: the name that a token spells;
  * `ParseNode.WellFormed`: the tokens of a tree are of the right kinds and
    spell its texts and names, the braces that open and close an argument are
    equally many, and elements are nested only so deep;
  * `TreeBuilder.Takes`: a tree under construction takes some tokens and goes on
    as another one;
  * `TreeBuilder.takes_flattenNodes`: it takes the tokens of well-formed nodes,
    and then holds these nodes;
  * `ParseBlock.ofTokens_flatten`: a well-formed tree is read from its tokens.
-/
import BraceMarkup.Proofs.ParseTree.Builder

namespace BraceMarkup

/-! ## Well-formed trees -/

/-- The name of an element that a token spells: its text less one `#` in front, if there is one. -/
def Token.Names (token : Token) (name : String) : Prop :=
  token.text = "#" ++ name ∨ (∀ rest, token.text ≠ "#" ++ rest) ∧ name = token.text

/-- A token spells one name. -/
theorem Token.names_iff {token : Token} {name : String} :
    token.Names name ↔ elementName token = name := by
  have hash : ∀ rest : String, token.text = "#" ++ rest ↔ token.text.toList = '#' :: rest.toList :=
    fun rest => by rw [← String.toList_inj, String.toList_append]; rfl
  unfold Token.Names elementName
  simp only [ne_eq, hash]
  split
  · next cs hcs =>
    rw [hcs]
    constructor
    · rintro (h | ⟨h, -⟩)
      · rw [(List.cons.inj h).2, String.ofList_toList]
      · exact absurd (by rw [String.toList_ofList]) (h (String.ofList cs))
    · rintro rfl
      exact .inl (by rw [String.toList_ofList])
  · next hcs =>
    constructor
    · rintro (h | ⟨-, rfl⟩)
      · exact absurd h (hcs _)
      · rfl
    · rintro rfl
      exact .inr ⟨fun rest => hcs _, rfl⟩

theorem Token.names_elementName (token : Token) : token.Names (elementName token) :=
  Token.names_iff.2 rfl

theorem Token.Names.unique {token : Token} {name other : String} (h : token.Names name)
    (ho : token.Names other) : name = other :=
  (Token.names_iff.1 h).symm.trans (Token.names_iff.1 ho)

mutual

/-- A node whose tokens are of the right kinds and spell its text or its name, and whose elements
    are nested at most `room` deep. -/
def ParseNode.WellFormed : ParseNode → (room : Nat) → Prop
  | .text token text, _ => token.kind = .text ∧ text = token.text
  | .element token name arguments, room => token.kind = .elementName ∧ token.Names name ∧
    0 < room ∧ ParseNode.ArgumentsWellFormed arguments (room - 1)

/-- Nodes that are all well formed. -/
def ParseNode.NodesWellFormed : List ParseNode → (room : Nat) → Prop
  | [], _ => True
  | node :: rest, room => node.WellFormed room ∧ ParseNode.NodesWellFormed rest room

/-- An argument between two runs of braces of the same length. -/
def ParseBlock.ArgumentWellFormed : ParseBlock → (room : Nat) → Prop
  | ⟨first, children, last⟩, room => first.kind = .argumentOpen ∧
    ParseNode.NodesWellFormed children room ∧ last.kind = .argumentClose ∧
    last.text.utf8ByteSize = first.text.utf8ByteSize

/-- Arguments that are all well formed. -/
def ParseNode.ArgumentsWellFormed : List ParseBlock → (room : Nat) → Prop
  | [], _ => True
  | argument :: rest, room => ParseBlock.ArgumentWellFormed argument room ∧
    ParseNode.ArgumentsWellFormed rest room

end

theorem ParseNode.nodesWellFormed_append {ns ms : List ParseNode} {room : Nat} :
    ParseNode.NodesWellFormed (ns ++ ms) room ↔
      ParseNode.NodesWellFormed ns room ∧ ParseNode.NodesWellFormed ms room := by
  induction ns with
  | nil => simp [ParseNode.NodesWellFormed]
  | cons n ns ih => simp [ParseNode.NodesWellFormed, ih, and_assoc]

/-! ## Taking tokens -/

/-- Having taken the tokens, the tree goes on as `next`, whatever comes behind them. -/
def TreeBuilder.Takes (t : TreeBuilder) (tokens : List Token) (next : TreeBuilder) : Prop :=
  ∀ (first : Token) (ending : Position) (rest : List Token),
    t.run first ending (tokens ++ rest) = next.run first ending rest

theorem TreeBuilder.Takes.refl (t : TreeBuilder) : t.Takes [] t := fun _ _ _ => rfl

theorem TreeBuilder.Takes.trans {t mid next : TreeBuilder} {tokens later : List Token}
    (h : t.Takes tokens mid) (hl : mid.Takes later next) : t.Takes (tokens ++ later) next := by
  intro first ending rest
  rw [List.append_assoc, h, hl]

theorem TreeBuilder.takes_of_step {t next : TreeBuilder} {token : Token}
    (hk : token.kind ≠ .endOfInput) (h : t.step token = .ok next) : t.Takes [token] next :=
  fun _ _ rest => TreeBuilder.run_of_step hk h rest

mutual

/-- The tree takes the tokens of a node, and then holds the node. -/
theorem TreeBuilder.takes_flatten : ∀ (node : ParseNode) {room : Nat}, node.WellFormed room →
    ∀ {t : TreeBuilder}, t.opened.length + room ≤ maxNesting →
      t.Takes node.flatten ⟨node :: t.nodes, t.opened⟩
  | .text token text, room, h, t, _ => by
    obtain ⟨hk, rfl⟩ := h
    exact TreeBuilder.takes_of_step (by simp [hk]) (TreeBuilder.step_text hk)
  | .element token name arguments, room, h, t, hroom => by
    obtain ⟨hk, hname, h0, harguments⟩ := h
    obtain rfl := Token.names_iff.1 hname
    have helement :
        t.Takes [token] ⟨.element token (elementName token) [] :: t.nodes, t.opened⟩ := by
      refine TreeBuilder.takes_of_step (by simp [hk]) ?_
      rw [TreeBuilder.step_elementName hk, if_neg (by omega)]
    exact helement.trans (TreeBuilder.takes_flattenArguments arguments harguments
      (t := ⟨.element token _ [] :: t.nodes, t.opened⟩) rfl (by simp only; omega))

/-- The tree takes the tokens of some nodes, and then holds the nodes. -/
theorem TreeBuilder.takes_flattenNodes : ∀ (nodes : List ParseNode) {room : Nat},
    ParseNode.NodesWellFormed nodes room → ∀ {t : TreeBuilder},
    t.opened.length + room ≤ maxNesting →
      t.Takes (ParseNode.flattenNodes nodes) ⟨nodes.reverse ++ t.nodes, t.opened⟩
  | [], _, _, t, _ => TreeBuilder.Takes.refl t
  | node :: rest, room, h, t, hroom => by
    have hnode := TreeBuilder.takes_flatten node h.1 hroom
    have hrest := TreeBuilder.takes_flattenNodes rest h.2 (t := ⟨node :: t.nodes, t.opened⟩) hroom
    rw [List.reverse_cons, List.append_assoc]
    exact hnode.trans hrest

/-- The tree takes the tokens of an argument behind an element, and then holds the element with the
    argument. -/
theorem TreeBuilder.takes_flattenArgument : ∀ (argument : ParseBlock) {room : Nat},
    ParseBlock.ArgumentWellFormed argument room → ∀ {t : TreeBuilder} {head : Token} {name : String}
    {earlier : List ParseBlock} {before : List ParseNode},
    t.nodes = .element head name earlier :: before → t.opened.length + 1 + room ≤ maxNesting →
      t.Takes (ParseBlock.flattenArgument argument)
        ⟨.element head name (earlier ++ [argument]) :: before, t.opened⟩
  | ⟨first, children, last⟩, room, h, t, head, name, earlier, before, hn, hroom => by
    obtain ⟨hf, hchildren, hl, hsize⟩ := h
    let inside : TreeBuilder := ⟨[], ⟨first, head, name, earlier, before⟩ :: t.opened⟩
    have hopen : t.Takes [first] inside :=
      TreeBuilder.takes_of_step (by simp [hf]) (TreeBuilder.step_argumentOpen hf hn)
    have hinside := TreeBuilder.takes_flattenNodes children hchildren (t := inside) hroom
    refine (hopen.trans hinside).trans (TreeBuilder.takes_of_step (by simp [hl]) ?_)
    rw [TreeBuilder.step_argumentClose hl rfl, if_pos hsize]
    simp [inside]

/-- The tree takes the tokens of some arguments behind an element, and then holds the element with
    the arguments. -/
theorem TreeBuilder.takes_flattenArguments : ∀ (arguments : List ParseBlock) {room : Nat},
    ParseNode.ArgumentsWellFormed arguments room → ∀ {t : TreeBuilder} {head : Token}
    {name : String} {earlier : List ParseBlock} {before : List ParseNode},
    t.nodes = .element head name earlier :: before → t.opened.length + 1 + room ≤ maxNesting →
      t.Takes (ParseNode.flattenArguments arguments)
        ⟨.element head name (earlier ++ arguments) :: before, t.opened⟩
  | [], _, _, t, head, name, earlier, before, hn, _ => by
    rw [List.append_nil, ← hn]
    exact TreeBuilder.Takes.refl t
  | argument :: rest, room, h, t, head, name, earlier, before, hn, hroom => by
    have hargument := TreeBuilder.takes_flattenArgument argument h.1 hn hroom
    have hrest := TreeBuilder.takes_flattenArguments rest h.2
      (t := ⟨.element head name (earlier ++ [argument]) :: before, t.opened⟩) rfl hroom
    rw [List.append_assoc] at hrest
    exact hargument.trans hrest

end

/-- **A well-formed tree is read from its tokens**, and what stands behind them plays no part. -/
theorem ParseBlock.ofTokens_flatten {tree : ParseBlock}
    (hwf : ParseNode.NodesWellFormed tree.children maxNesting)
    (hlast : tree.last.kind = .endOfInput)
    (hfirst : tree.flatten.head? = some tree.first) (rest : List Token) :
    ParseBlock.ofTokens (tree.flatten ++ rest) = .ok tree := by
  obtain ⟨first, children, last⟩ := tree
  obtain ⟨tokens, htokens⟩ := List.head?_eq_some_iff.1 hfirst
  have hrun (ending : Position) : TreeBuilder.empty.run first ending
      (ParseBlock.flatten ⟨first, children, last⟩ ++ rest) = .ok ⟨first, children, last⟩ := by
    have htakes := TreeBuilder.takes_flattenNodes children hwf (t := .empty)
      (Nat.le_of_eq (Nat.zero_add _)) first ending (last :: rest)
    rw [ParseBlock.flatten, List.append_assoc, List.singleton_append, htakes,
      TreeBuilder.run_of_ends ⟨hlast, rfl⟩]
    simp [TreeBuilder.empty]
  rw [htokens] at hrun ⊢
  rw [List.cons_append, ParseBlock.ofTokens_cons]
  exact hrun _

end BraceMarkup
