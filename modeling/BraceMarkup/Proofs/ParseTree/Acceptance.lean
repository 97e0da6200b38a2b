/-
  Exactly the well-formed trees are read.

  A tree under construction has taken the tokens in front of it, and whatever
  it holds is well formed.  Both hold of the empty tree, and every step keeps
  them, so that a tree that is read is well formed and its tokens are those in
  front of the rest.  The other direction is `ParseBlock.ofTokens_flatten`.

  * `ParseNode.Carries`: the node without tokens that the tokens of a node
    stand for;
  * `ParseBlock.IsTreeOf`: a well-formed tree whose tokens are the first of a
    sequence;
  * `TreeBuilder.tokens`, `TreeBuilder.WellFormed`: what a tree under
    construction has taken, and that it holds well-formed nodes;
  * `TreeBuilder.tokens_step`, `TreeBuilder.WellFormed.step`: one more token;
  * `TreeBuilder.WellFormed.run`: all tokens up to the end token;
  * `ParseBlock.ofTokens_eq_ok_iff`: **the trees that are read are the
    well-formed ones**.
-/
import BraceMarkup.Proofs.ParseTree.Grammar

namespace BraceMarkup

/-! ## What the tokens of a tree stand for -/

mutual

/-- A node of a tree, and the node without tokens that its tokens stand for. -/
def ParseNode.Carries : ParseNode → Node → Prop
  | .text token _, n => n = .text token.text
  | .element token _ arguments, n => ∃ name blocks, n = .element name blocks ∧ token.Names name ∧
    ParseNode.ArgumentsCarry arguments blocks

/-- Nodes that stand for those of a block, in their order. -/
def ParseNode.NodesCarry : List ParseNode → Block → Prop
  | [], b => b = []
  | node :: rest, b => ∃ n ns, b = n :: ns ∧ node.Carries n ∧ ParseNode.NodesCarry rest ns

/-- A document or an argument whose nodes stand for those of a block. -/
def ParseBlock.Carries : ParseBlock → Block → Prop
  | ⟨_, children, _⟩, b => ParseNode.NodesCarry children b

/-- Arguments that stand for some blocks, in their order. -/
def ParseNode.ArgumentsCarry : List ParseBlock → List Block → Prop
  | [], bs => bs = []
  | argument :: rest, bs => ∃ b more, bs = b :: more ∧ ParseBlock.Carries argument b ∧
    ParseNode.ArgumentsCarry rest more

end

mutual

theorem ParseNode.carries_iff : ∀ (node : ParseNode) {room : Nat}, node.WellFormed room →
    ∀ {n : Node}, node.Carries n ↔ node.toNode = n
  | .text token text, _, h, n => by
    simp only [ParseNode.Carries, ParseNode.toNode, h.2, eq_comm]
  | .element token name arguments, room, h, n => by
    obtain ⟨-, hname, -, harguments⟩ := h
    simp only [ParseNode.Carries, ParseNode.toNode,
      ParseNode.argumentsCarry_iff arguments harguments]
    constructor
    · rintro ⟨other, _, rfl, hother, rfl⟩
      rw [hname.unique hother]
    · rintro rfl
      exact ⟨_, _, rfl, hname, rfl⟩

theorem ParseNode.nodesCarry_iff : ∀ (nodes : List ParseNode) {room : Nat},
    ParseNode.NodesWellFormed nodes room →
      ∀ {b : Block}, ParseNode.NodesCarry nodes b ↔ ParseNode.toNodes nodes = b
  | [], _, _, b => by simp only [ParseNode.NodesCarry, ParseNode.toNodes, eq_comm]
  | node :: rest, room, h, b => by
    simp only [ParseNode.NodesCarry, ParseNode.toNodes, ParseNode.carries_iff node h.1,
      ParseNode.nodesCarry_iff rest h.2]
    constructor
    · rintro ⟨_, _, rfl, rfl, rfl⟩
      rfl
    · rintro rfl
      exact ⟨_, _, rfl, rfl, rfl⟩

theorem ParseBlock.argumentCarries_iff : ∀ (block : ParseBlock) {room : Nat},
    ParseBlock.ArgumentWellFormed block room →
      ∀ {b : Block}, block.Carries b ↔ block.toBlock = b
  | ⟨_, children, _⟩, _, h, b => by
    simp only [ParseBlock.Carries, ParseBlock.toBlock, ParseNode.nodesCarry_iff children h.2.1]

theorem ParseNode.argumentsCarry_iff : ∀ (arguments : List ParseBlock) {room : Nat},
    ParseNode.ArgumentsWellFormed arguments room →
      ∀ {bs : List Block}, ParseNode.ArgumentsCarry arguments bs ↔
        ParseNode.toArguments arguments = bs
  | [], _, _, bs => by simp only [ParseNode.ArgumentsCarry, ParseNode.toArguments, eq_comm]
  | argument :: rest, room, h, bs => by
    simp only [ParseNode.ArgumentsCarry, ParseNode.toArguments,
      ParseBlock.argumentCarries_iff argument h.1, ParseNode.argumentsCarry_iff rest h.2]
    constructor
    · rintro ⟨_, _, rfl, rfl, rfl⟩
      rfl
    · rintro rfl
      exact ⟨_, _, rfl, rfl, rfl⟩

end

/-- A well-formed tree of a whole document, whose tokens are the first of a sequence. -/
structure ParseBlock.IsTreeOf (tree : ParseBlock) (tokens : List Token) : Prop where
  flatten : tree.flatten <+: tokens
  first : tokens.head? = some tree.first
  nodes : ParseNode.NodesWellFormed tree.children maxNesting
  last : tree.last.kind = .endOfInput

/-- The fields of a tree of a sequence hold what its tokens spell. -/
theorem ParseBlock.IsTreeOf.carries_iff {tree : ParseBlock} {tokens : List Token}
    (h : tree.IsTreeOf tokens) {b : Block} : tree.Carries b ↔ tree.toBlock = b := by
  obtain ⟨first, children, last⟩ := tree
  exact ParseNode.nodesCarry_iff children h.nodes

/-! ## Arguments one after the other -/

theorem ParseNode.flattenArguments_append (as bs : List ParseBlock) :
    ParseNode.flattenArguments (as ++ bs) =
      ParseNode.flattenArguments as ++ ParseNode.flattenArguments bs := by
  induction as with
  | nil => rfl
  | cons a as ih => simp [ParseNode.flattenArguments, ih]

theorem ParseNode.argumentsWellFormed_append {as bs : List ParseBlock} {room : Nat} :
    ParseNode.ArgumentsWellFormed (as ++ bs) room ↔
      ParseNode.ArgumentsWellFormed as room ∧ ParseNode.ArgumentsWellFormed bs room := by
  induction as with
  | nil => simp [ParseNode.ArgumentsWellFormed]
  | cons a as ih => simp [ParseNode.ArgumentsWellFormed, ih, and_assoc]

/-! ## A tree under construction -/

/-- The nodes around an open argument up to its element, last first. -/
def OpenElement.nodes (e : OpenElement) : List ParseNode :=
  .element e.head e.name e.arguments :: e.before

/-- The tokens from the beginning of the nodes around an open argument up to its opening. -/
def OpenElement.tokens (e : OpenElement) : List Token :=
  ParseNode.flattenNodes e.nodes.reverse ++ [e.opening]

/-- The tokens up to the opening of the innermost argument. -/
def OpenElement.allTokens : List OpenElement → List Token
  | [] => []
  | e :: outer => OpenElement.allTokens outer ++ e.tokens

/-- The tokens that a tree under construction has taken. -/
def TreeBuilder.tokens (t : TreeBuilder) : List Token :=
  OpenElement.allTokens t.opened ++ ParseNode.flattenNodes t.nodes.reverse

/-- Arguments that are open inside each other, with well-formed nodes around them. -/
def OpenElement.AllWellFormed : List OpenElement → Prop
  | [] => True
  | e :: outer => e.opening.kind = .argumentOpen ∧
    ParseNode.NodesWellFormed e.nodes.reverse (maxNesting - outer.length) ∧
    OpenElement.AllWellFormed outer

/-- A tree under construction whose nodes are well formed. -/
structure TreeBuilder.WellFormed (t : TreeBuilder) : Prop where
  opened : OpenElement.AllWellFormed t.opened
  nodes : ParseNode.NodesWellFormed t.nodes.reverse (maxNesting - t.opened.length)

theorem TreeBuilder.wellFormed_empty : TreeBuilder.empty.WellFormed := ⟨trivial, trivial⟩

/-- One more node in a well-formed tree. -/
theorem ParseNode.nodesWellFormed_reverse_cons {node : ParseNode} {nodes : List ParseNode}
    {room : Nat} : ParseNode.NodesWellFormed (node :: nodes).reverse room ↔
      ParseNode.NodesWellFormed nodes.reverse room ∧ node.WellFormed room := by
  rw [List.reverse_cons, ParseNode.nodesWellFormed_append]
  simp [ParseNode.NodesWellFormed]

/-- No more arguments are open inside each other than elements may be nested. -/
theorem OpenElement.AllWellFormed.length_le {opened : List OpenElement}
    (h : OpenElement.AllWellFormed opened) : opened.length ≤ maxNesting := by
  cases opened with
  | nil => exact Nat.zero_le _
  | cons e outer =>
    obtain ⟨-, -, hroom, -⟩ := (ParseNode.nodesWellFormed_reverse_cons.1 h.2.1).2
    rw [List.length_cons]
    omega

/-! ## One more token -/

section
variable {t next : TreeBuilder} {token : Token}

/-- What a token does to a tree that takes it, by the kind of the token. -/
theorem TreeBuilder.step_cases (h : t.step token = .ok next) :
    (token.kind = .text ∧ next = ⟨.ofText token :: t.nodes, t.opened⟩) ∨
    (token.kind = .elementName ∧ t.opened.length ≠ maxNesting ∧
      next = ⟨.element token (elementName token) [] :: t.nodes, t.opened⟩) ∨
    (∃ head name arguments before, token.kind = .argumentOpen ∧
      t.nodes = .element head name arguments :: before ∧
      next = ⟨[], ⟨token, head, name, arguments, before⟩ :: t.opened⟩) ∨
    ∃ innermost outer, token.kind = .argumentClose ∧ t.opened = innermost :: outer ∧
      token.text.utf8ByteSize = innermost.opening.text.utf8ByteSize ∧
      next = ⟨.element innermost.head innermost.name (innermost.arguments ++
        [⟨innermost.opening, t.nodes.reverse, token⟩]) :: innermost.before, outer⟩ := by
  unfold TreeBuilder.step at h
  split at h
  · next hk =>
    cases h
    exact .inl ⟨hk, rfl⟩
  · next hk =>
    split at h
    · cases h
    · next hroom =>
      cases h
      exact .inr (.inl ⟨hk, hroom, rfl⟩)
  · next hk =>
    split at h
    · next head name arguments before hn =>
      cases h
      exact .inr (.inr (.inl ⟨head, name, arguments, before, hk, hn, rfl⟩))
    · cases h
  · next hk =>
    split at h
    · cases h
    · next innermost outer ho =>
      split at h
      · next hsize =>
        cases h
        exact .inr (.inr (.inr ⟨innermost, outer, hk, ho, hsize, rfl⟩))
      · cases h
  · cases h

/-- A step takes its token behind those before. -/
theorem TreeBuilder.tokens_step (h : t.step token = .ok next) :
    next.tokens = t.tokens ++ [token] := by
  obtain ⟨nodes, opened⟩ := t
  rcases step_cases h with ⟨-, rfl⟩ | ⟨-, -, rfl⟩ | ⟨_, _, _, _, -, hn, rfl⟩ |
    ⟨innermost, outer, -, ho, -, rfl⟩
  · simp [TreeBuilder.tokens, ParseNode.flattenNodes, ParseNode.flatten]
  · simp [TreeBuilder.tokens, ParseNode.flattenNodes, ParseNode.flatten,
      ParseNode.flattenArguments]
  · subst hn
    simp [TreeBuilder.tokens, OpenElement.allTokens, OpenElement.tokens, OpenElement.nodes,
      ParseNode.flattenNodes]
  · subst ho
    simp [TreeBuilder.tokens, OpenElement.allTokens, OpenElement.tokens, OpenElement.nodes,
      ParseNode.flattenNodes, ParseNode.flatten, ParseNode.flattenArguments_append,
      ParseNode.flattenArguments, ParseBlock.flattenArgument]

/-- A step keeps a tree well formed. -/
theorem TreeBuilder.WellFormed.step (hwf : t.WellFormed) (h : t.step token = .ok next) :
    next.WellFormed := by
  obtain ⟨nodes, opened⟩ := t
  obtain ⟨hopened, hnodes⟩ := hwf
  rcases step_cases h with ⟨hk, rfl⟩ | ⟨hk, hroom, rfl⟩ | ⟨_, _, _, _, hk, hn, rfl⟩ |
    ⟨innermost, outer, hk, ho, hsize, rfl⟩
  · exact ⟨hopened, ParseNode.nodesWellFormed_reverse_cons.2 ⟨hnodes, hk, rfl⟩⟩
  · have hlt : opened.length < maxNesting := Nat.lt_of_le_of_ne hopened.length_le hroom
    exact ⟨hopened, ParseNode.nodesWellFormed_reverse_cons.2
      ⟨hnodes, hk, token.names_elementName, Nat.sub_pos_of_lt hlt, trivial⟩⟩
  · subst hn
    exact ⟨⟨hk, hnodes, hopened⟩, trivial⟩
  · subst ho
    obtain ⟨hopening, haround, houter⟩ := hopened
    obtain ⟨hbefore, hkind, hname, hroom, harguments⟩ :=
      ParseNode.nodesWellFormed_reverse_cons.1 haround
    refine ⟨houter, ParseNode.nodesWellFormed_reverse_cons.2 ⟨hbefore, hkind, hname, hroom, ?_⟩⟩
    -- inside the argument there is room for one element less
    have hinside : ParseNode.NodesWellFormed nodes.reverse (maxNesting - outer.length - 1) := hnodes
    exact ParseNode.argumentsWellFormed_append.2
      ⟨harguments, ⟨hopening, hinside, hk, hsize⟩, trivial⟩

end

/-! ## All tokens -/

/-- The tree that a run ends with is well formed, and its tokens are those that the run began with
    and the first of the run. -/
theorem TreeBuilder.WellFormed.run {t : TreeBuilder} (hwf : t.WellFormed) {first : Token}
    {ending : Position} {tokens : List Token} {tree : ParseBlock}
    (h : t.run first ending tokens = .ok tree) :
    tree.flatten <+: t.tokens ++ tokens ∧ tree.first = first ∧
      ParseNode.NodesWellFormed tree.children maxNesting ∧ tree.last.kind = .endOfInput := by
  induction tokens generalizing t with
  | nil => cases h
  | cons token rest ih =>
    by_cases hend : t.Ends token
    · rw [TreeBuilder.run_of_ends hend] at h
      cases h
      obtain ⟨nodes, opened⟩ := t
      obtain rfl : opened = [] := List.isEmpty_iff.1 hend.2
      exact ⟨⟨rest, by simp [ParseBlock.flatten, TreeBuilder.tokens, OpenElement.allTokens]⟩, rfl,
        hwf.nodes, hend.1⟩
    rw [TreeBuilder.run_cons hend] at h
    cases hstep : t.step token with
    | error e => rw [hstep] at h; cases h
    | ok next =>
      rw [hstep] at h
      obtain ⟨hflatten, hrest⟩ := ih (hwf.step hstep) h
      rw [TreeBuilder.tokens_step hstep, List.append_assoc, List.singleton_append] at hflatten
      exact ⟨hflatten, hrest⟩

/-- A tree that is read is well formed, and its tokens are the first of those it is read from. -/
theorem ParseBlock.isTreeOf_of_ofTokens {tokens : List Token} {tree : ParseBlock}
    (h : ParseBlock.ofTokens tokens = .ok tree) : tree.IsTreeOf tokens := by
  cases tokens with
  | nil => cases h
  | cons first rest =>
    rw [ParseBlock.ofTokens_cons] at h
    obtain ⟨hflatten, hfirst, hnodes, hlast⟩ := TreeBuilder.wellFormed_empty.run h
    exact ⟨hflatten, by rw [hfirst]; rfl, hnodes, hlast⟩

/-- A tree of a sequence begins with the first token of its own. -/
theorem ParseBlock.IsTreeOf.head? {tokens : List Token} {tree : ParseBlock}
    (h : tree.IsTreeOf tokens) : tree.flatten.head? = some tree.first := by
  obtain ⟨⟨rest, rfl⟩, hfirst, -, -⟩ := h
  rwa [List.head?_append, Option.or_of_isSome (by simp [ParseBlock.flatten])] at hfirst

/-- A well-formed tree is read from its tokens, whatever comes behind them. -/
theorem ParseBlock.IsTreeOf.ofTokens {tokens : List Token} {tree : ParseBlock}
    (h : tree.IsTreeOf tokens) (later : List Token) :
    ParseBlock.ofTokens (tree.flatten ++ later) = .ok tree :=
  ParseBlock.ofTokens_flatten h.nodes h.last h.head? later

/-- A sequence of tokens is read as a tree exactly if that is a tree of the sequence. -/
theorem ParseBlock.ofTokens_iff_isTreeOf {tokens : List Token} {tree : ParseBlock} :
    ParseBlock.ofTokens tokens = .ok tree ↔ tree.IsTreeOf tokens := by
  constructor
  · exact ParseBlock.isTreeOf_of_ofTokens
  · intro h
    obtain ⟨later, hlater⟩ := h.flatten
    rw [← hlater]
    exact h.ofTokens later

/-- **The trees that are read from a sequence of tokens are the well-formed ones** whose tokens are
    the first of the sequence, and their nodes carry what these tokens spell.  There is at most one
    such tree, and the tokens behind its end token play no part. -/
theorem ParseBlock.ofTokens_eq_ok_iff (tokens : List Token) :
    (∀ (tree : ParseBlock) (b : Block), (ParseBlock.ofTokens tokens = .ok tree ∧ tree.toBlock = b) ↔
      (tree.IsTreeOf tokens ∧ tree.Carries b)) ∧
    (∀ tree other : ParseBlock, tree.IsTreeOf tokens → other.IsTreeOf tokens → tree = other) ∧
    ∀ (tree : ParseBlock) (later : List Token), tree.IsTreeOf tokens →
      ParseBlock.ofTokens (tree.flatten ++ later) = .ok tree := by
  refine ⟨?_, ?_, ?_⟩
  · intro tree b
    rw [ParseBlock.ofTokens_iff_isTreeOf]
    exact and_congr_right fun htree => htree.carries_iff.symm
  · intro tree other h ho
    rw [← ParseBlock.ofTokens_iff_isTreeOf] at h ho
    exact Except.ok.inj (h.symm.trans ho)
  · intro tree later h
    exact h.ofTokens later

/-- An element with two arguments, and tokens behind the end token. -/
theorem ParseBlock.ofTokens_eq_ok_two_arguments :
    let name : Token := ⟨.elementName, "#a", ⟨1, 1⟩⟩
    let opening : Token := ⟨.argumentOpen, "\x7b", ⟨1, 3⟩⟩
    let closing : Token := ⟨.argumentClose, "\x7d", ⟨1, 4⟩⟩
    let word : Token := ⟨.text, "w", ⟨1, 5⟩⟩
    let last : Token := ⟨.endOfInput, "", ⟨1, 6⟩⟩
    let tree : ParseBlock := ⟨name, [.element name "a" [⟨opening, [], closing⟩,
      ⟨opening, [.text word "w"], closing⟩]], last⟩
    let tokens := [name, opening, closing, opening, word, closing, last, closing, word]
    tree.IsTreeOf tokens ∧
      ParseBlock.ofTokens tokens = .ok tree ∧ tree.toBlock = [.element "a" [[], [.text "w"]]] := by
  intro name opening closing word last tree tokens
  have htree : tree.IsTreeOf tokens := {
    flatten := ⟨[closing, word], rfl⟩
    first := rfl
    nodes := ⟨⟨rfl, .inl rfl, by decide, ⟨rfl, trivial, rfl, rfl⟩,
      ⟨rfl, ⟨⟨rfl, rfl⟩, trivial⟩, rfl, rfl⟩, trivial⟩, trivial⟩
    last := rfl }
  refine ⟨htree, ((ParseBlock.ofTokens_eq_ok_iff tokens).1 tree _).2 ⟨htree, ?_⟩⟩
  exact ⟨_, _, rfl,
    ⟨_, _, rfl, .inl rfl, _, _, rfl, rfl, _, _, rfl, ⟨_, _, rfl, rfl, rfl⟩, rfl⟩, rfl⟩

end BraceMarkup
