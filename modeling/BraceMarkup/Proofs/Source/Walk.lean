/-
  A walk follows the text.

  A walk calls a visitor on the nodes of a block, on each element before the
  nodes in its arguments, and ends where the visitor fails.  It comes to the
  same as calling the visitor on the nodes one after the other.  The nodes of a
  block that was read from a text stand in the order of the tokens they were
  read from, each of them once.

  * `Visitor`: what is done at a node; `Visitor.noting`: the same, where the
    nodes are noted on the way; `Visitor.walked`: what a walk comes to;
  * `Block.walk_eq_forM`: a walk is one call after the other;
  * `Visitor.FailsAt`: the first call that fails, and
    `Visitor.run_forM_of_failsAt`: no call follows it;
  * `Token.Begins`: the token that a node was read from;
  * `ParseNode.begins_toNodes`: the nodes of a tree and its tokens;
  * `Block.walk_in_order`: **a walk visits the nodes in the order of the text**,
    up to the first call that fails.
-/
import BraceMarkup.Proofs.Source.Unmarked
import Mathlib.Data.List.Forall2

namespace BraceMarkup

/-! ## Visitors -/

/-- What is done at a node.  A visitor may keep a state of its own, and it may fail. -/
abbrev Visitor (ε σ : Type) := Node → ExceptT ε (StateM σ) Unit

section
variable {m : Type → Type} [Monad m] [LawfulMonad m] (visit : Node → m Unit)

mutual

theorem Node.walk_eq_forM : ∀ n : Node, Node.walk visit n = forM n.preorder visit
  | .text s => by simp [Node.walk, Node.preorder]
  | .element name arguments => by
    rw [Node.walk, Node.preorder, List.forM_cons, Node.walkArguments_eq_forM arguments]

/-- **A walk is one call after the other**, on the nodes in their order. -/
theorem Block.walk_eq_forM : ∀ b : Block, Block.walk visit b = forM b.preorder visit
  | [] => by rw [Block.walk, Block.preorder, List.forM_nil]
  | n :: rest => by
    rw [Block.walk, Block.preorder, List.forM_append, Node.walk_eq_forM n,
      Block.walk_eq_forM rest]

theorem Node.walkArguments_eq_forM : ∀ bs : List Block,
    Node.walkArguments visit bs = forM (Node.preorderArguments bs) visit
  | [] => by rw [Node.walkArguments, Node.preorderArguments, List.forM_nil]
  | b :: rest => by
    rw [Node.walkArguments, Node.preorderArguments, List.forM_append, Block.walk_eq_forM b,
      Node.walkArguments_eq_forM rest]

end

end

namespace Visitor

variable {ε σ : Type} {visit : Visitor ε σ}

/-- What a call on a node yields in a state, and the state it leaves behind. -/
def call (visit : Visitor ε σ) (node : Node) (s : σ) : Except ε Unit × σ := (visit node).run.run s

/-- The visitor that also notes the nodes it is called on, in the order of the calls. -/
def noting (visit : Visitor ε σ) : Visitor ε (List Node × σ) := fun node => ExceptT.mk fun t =>
  let (result, after) := visit.call node t.2
  (result, (t.1 ++ [node], after))

/-- What a walk through a block comes to, beginning in a state: its result, the nodes that the
    visitor was called on, and the state behind the last call. -/
def walked (visit : Visitor ε σ) (b : Block) (s : σ) : Except ε Unit × List Node × σ :=
  (Block.walk visit.noting b).run.run ([], s)

/-- No call fails, whatever the node and the state. -/
def NeverFails (visit : Visitor ε σ) : Prop := ∀ node s, (visit.call node s).1 = .ok ()

/-- Called on some nodes one after the other, beginning in a state, the visitor fails for the first
    time in its `n`-th call, with an error, and leaves a state behind. -/
inductive FailsAt (visit : Visitor ε σ) : σ → List Node → (n : Nat) → ε → σ → Prop
  | now {s node rest e after} : visit.call node s = (.error e, after) →
      FailsAt visit s (node :: rest) 1 e after
  | later {s node rest mid n e after} : visit.call node s = (.ok (), mid) →
      FailsAt visit mid rest n e after → FailsAt visit s (node :: rest) (n + 1) e after

theorem NeverFails.not_failsAt (h : visit.NeverFails) {s : σ} {nodes : List Node} {n : Nat} {e : ε}
    {after : σ} : ¬ visit.FailsAt s nodes n e after := by
  intro hf
  induction hf with
  | now hcall => cases (h _ _).symm.trans (congrArg Prod.fst hcall)
  | later _ _ ih => exact ih

/-! ## One call after the other -/

section
variable {s mid after : σ} {node : Node} {rest nodes : List Node} {n : Nat} {e : ε}

theorem run_forM_of_ok (h : visit.call node s = (.ok (), mid)) :
    (forM (node :: rest) visit).run.run s = (forM rest visit).run.run mid := by
  have h : (visit node).run.run s = (.ok (), mid) := h
  rw [List.forM_cons, ExceptT.run_bind, StateT.run_bind, h]
  rfl

theorem run_forM_of_error (h : visit.call node s = (.error e, after)) :
    (forM (node :: rest) visit).run.run s = (.error e, after) := by
  have h : (visit node).run.run s = (.error e, after) := h
  rw [List.forM_cons, ExceptT.run_bind, StateT.run_bind, h]
  rfl

theorem call_noting (visit : Visitor ε σ) (node : Node) (seen : List Node) (s : σ) :
    visit.noting.call node (seen, s) =
      ((visit.call node s).1, seen ++ [node], (visit.call node s).2) := rfl

/-- Noting the nodes changes nothing. -/
theorem run_forM_noting (nodes seen : List Node) (s : σ) :
    (forM nodes visit).run.run s =
      (((forM nodes visit.noting).run.run (seen, s)).1,
        ((forM nodes visit.noting).run.run (seen, s)).2.2) := by
  induction nodes generalizing seen s with
  | nil => rfl
  | cons node rest ih =>
    rcases hcall : visit.call node s with ⟨result, mid⟩
    have hnoting := visit.call_noting node seen s
    rw [hcall] at hnoting
    cases result with
    | error e => rw [run_forM_of_error hcall, run_forM_of_error hnoting]
    | ok => rw [run_forM_of_ok hcall, run_forM_of_ok hnoting, ih]

/-- **No call follows the first one that fails.** -/
theorem run_forM_of_failsAt (h : visit.FailsAt s nodes n e after) :
    (forM nodes visit).run.run s = (.error e, after) := by
  induction h with
  | now hcall => exact run_forM_of_error hcall
  | later hcall _ ih => rw [run_forM_of_ok hcall, ih]

/-- The nodes noted up to the first call that fails. -/
theorem FailsAt.noting (h : visit.FailsAt s nodes n e after) (seen : List Node) :
    visit.noting.FailsAt (seen, s) nodes n e (seen ++ nodes.take n, after) := by
  induction h generalizing seen with
  | now hcall => exact .now (by rw [call_noting, hcall]; rfl)
  | @later s node rest mid n e after hcall _ ih =>
    have hnoting : visit.noting.call node (seen, s) = (.ok (), seen ++ [node], mid) := by
      rw [call_noting, hcall]
    rw [List.take_succ_cons, List.append_cons]
    exact .later hnoting (ih _)

/-- Where no call fails, all nodes are noted. -/
theorem run_forM_of_not_failsAt (h : ∀ n e after, ¬ visit.FailsAt s nodes n e after)
    (seen : List Node) :
    ∃ after, (forM nodes visit.noting).run.run (seen, s) = (.ok (), seen ++ nodes, after) := by
  induction nodes generalizing seen s with
  | nil => exact ⟨s, by rw [List.append_nil]; rfl⟩
  | cons node rest ih =>
    rcases hcall : visit.call node s with ⟨result, mid⟩
    cases result with
    | error e => exact absurd (.now hcall) (h 1 e mid)
    | ok =>
      have hnoting : visit.noting.call node (seen, s) = (.ok (), seen ++ [node], mid) := by
        rw [call_noting, hcall]
      have hrest : ∀ n e after, ¬ visit.FailsAt mid rest n e after :=
        fun n e after hf => h (n + 1) e after (.later hcall hf)
      rw [run_forM_of_ok hnoting, List.append_cons seen node rest]
      exact ih hrest _

end

/-! ## Walks -/

/-- A walk comes to the same whether the nodes are noted or not. -/
theorem run_walk (visit : Visitor ε σ) (b : Block) (s : σ) :
    (Block.walk visit b).run.run s = ((visit.walked b s).1, (visit.walked b s).2.2) := by
  rw [walked, Block.walk_eq_forM, Block.walk_eq_forM]
  exact run_forM_noting _ _ _

theorem walked_of_failsAt {b : Block} {s after : σ} {n : Nat} {e : ε}
    (h : visit.FailsAt s b.preorder n e after) :
    visit.walked b s = (.error e, b.preorder.take n, after) := by
  rw [walked, Block.walk_eq_forM]
  exact run_forM_of_failsAt (h.noting [])

theorem walked_of_not_failsAt {b : Block} {s : σ}
    (h : ∀ n e after, ¬ visit.FailsAt s b.preorder n e after) :
    ∃ after, visit.walked b s = (.ok (), b.preorder, after) := by
  rw [walked, Block.walk_eq_forM]
  exact run_forM_of_not_failsAt h []

end Visitor

/-! ## Nodes and tokens -/

/-- Whether a node begins with the token: it is a text or the name of an element. -/
def Token.beginsNode (token : Token) : Bool := token.kind = .text || token.kind = .elementName

/-- A node begins with a token: a text consists of a text token, and an element begins with a name
    token, which has a `#` in front of the name. -/
inductive Token.Begins : Token → Node → Prop
  | text {token : Token} : token.kind = .text → Token.Begins token (.text token.text)
  | element {token : Token} {name : String} {arguments : List Block} :
      token.kind = .elementName → token.text = "#" ++ name →
      Token.Begins token (.element name arguments)

/-- The tokens that nodes begin with. -/
abbrev nodeTokens (tokens : List Token) : List Token := tokens.filter Token.beginsNode

theorem Token.Proper.begins {token : Token} (h : token.Proper) (hk : token.kind = .elementName)
    {name : String} (hn : token.Names name) (arguments : List Block) :
    token.Begins (.element name arguments) := by
  rw [Token.Proper, hk] at h
  obtain ⟨chars, hchars, -⟩ := h
  refine .element hk (hn.resolve_right fun hplain => hplain.1 (String.ofList chars) ?_)
  rw [← String.toList_inj, hchars, String.toList_append]
  exact congrArg _ String.toList_ofList.symm

mutual

theorem ParseNode.begins_toNode : ∀ (node : ParseNode) {room : Nat}, node.WellFormed room →
    (∀ token ∈ node.flatten, token.Proper) →
      List.Forall₂ Token.Begins (nodeTokens node.flatten) node.toNode.preorder
  | .text token _, _, ⟨hk, htext⟩, _ => by
    subst htext
    simpa [ParseNode.flatten, ParseNode.toNode, Node.preorder, Token.beginsNode, hk]
      using Token.Begins.text hk
  | .element token name arguments, room, ⟨hk, hname, _, harguments⟩, hproper => by
    obtain ⟨htoken, hproper⟩ := List.forall_mem_cons.1 hproper
    have hfirst : token.beginsNode = true := by simp [Token.beginsNode, hk]
    rw [ParseNode.flatten, nodeTokens, List.filter_cons_of_pos hfirst, ParseNode.toNode,
      Node.preorder]
    exact .cons (htoken.begins hk hname _)
      (ParseNode.begins_toArguments arguments harguments hproper)

/-- **The nodes of a tree begin with its text and name tokens**, in their order. -/
theorem ParseNode.begins_toNodes : ∀ (nodes : List ParseNode) {room : Nat},
    ParseNode.NodesWellFormed nodes room →
    (∀ token ∈ ParseNode.flattenNodes nodes, token.Proper) →
      List.Forall₂ Token.Begins (nodeTokens (ParseNode.flattenNodes nodes))
        (Block.preorder (ParseNode.toNodes nodes))
  | [], _, _, _ => .nil
  | node :: rest, room, ⟨hnode, hrest⟩, hproper => by
    obtain ⟨hproper, hproper'⟩ := List.forall_mem_append.1 hproper
    rw [ParseNode.flattenNodes, nodeTokens, List.filter_append]
    exact List.rel_append (ParseNode.begins_toNode node hnode hproper)
      (ParseNode.begins_toNodes rest hrest hproper')

theorem ParseNode.begins_toArguments : ∀ (arguments : List ParseBlock) {room : Nat},
    ParseNode.ArgumentsWellFormed arguments room →
    (∀ token ∈ ParseNode.flattenArguments arguments, token.Proper) →
      List.Forall₂ Token.Begins (nodeTokens (ParseNode.flattenArguments arguments))
        (Node.preorderArguments (ParseNode.toArguments arguments))
  | [], _, _, _ => .nil
  | ⟨first, children, last⟩ :: rest, room, ⟨⟨hopen, hchildren, hclose, _⟩, hrest⟩, hproper => by
    -- the braces around the argument belong to no node
    have hfirst : ¬ first.beginsNode = true := by simp [Token.beginsNode, hopen]
    have hlast : nodeTokens [last] = [] := by simp [Token.beginsNode, hclose]
    obtain ⟨hproper, hproper'⟩ := List.forall_mem_append.1 hproper
    have hinside := ParseNode.begins_toNodes children hchildren fun token ht =>
      hproper token (by simp [ParseBlock.flattenArgument, ht])
    have htokens : nodeTokens (ParseNode.flattenArguments (⟨first, children, last⟩ :: rest)) =
        nodeTokens (ParseNode.flattenNodes children) ++
          nodeTokens (ParseNode.flattenArguments rest) := by
      simp only [ParseNode.flattenArguments, ParseBlock.flattenArgument, nodeTokens,
        List.filter_append, List.cons_append, List.filter_cons_of_neg hfirst]
      rw [show [last].filter Token.beginsNode = [] from hlast, List.append_nil]
    rw [htokens]
    exact List.rel_append hinside (ParseNode.begins_toArguments rest hrest hproper')

end

/-- The nodes of a block that was read begin with the text and name tokens of its source. -/
theorem Block.begins_of_ofSource {source : String} {b : Block} (h : Block.ofSource source = .ok b) :
    ∃ tokens, tokenize source = .ok tokens ∧
      List.Forall₂ Token.Begins (nodeTokens tokens) b.preorder := by
  obtain ⟨tokens, tree, htokens, htree, rfl⟩ := Block.ofSource_eq_ok_iff.1 h
  obtain ⟨first, children, last⟩ := tree
  obtain ⟨-, -, hnodes, (hlast : last.kind = .endOfInput)⟩ := ParseBlock.isTreeOf_of_ofTokens htree
  have hflatten := ParseBlock.flatten_eq_of_tokenize htokens htree
  have hproper := (Scanner.shaped_run htokens).proper
  refine ⟨tokens, htokens, ?_⟩
  rw [← hflatten, ParseBlock.flatten] at hproper ⊢
  have hend : [last].filter Token.beginsNode = [] := by simp [Token.beginsNode, hlast]
  rw [nodeTokens, List.filter_append, hend, List.append_nil]
  exact ParseNode.begins_toNodes children hnodes (List.forall_mem_append.1 hproper).1

/-- **A walk visits the nodes in the order of the text.**  A visitor that never fails is called on
    the nodes that begin with the text and name tokens of the source, in the order of the tokens,
    once for each of them.  In every block, one that fails is called on all nodes up to the one
    where it fails for the first time, and on none behind; the walk then ends with its error.  The
    state that a walk leaves behind does not depend on noting the nodes. -/
theorem Block.walk_in_order :
    (∀ (source : String) (b : Block), Block.ofSource source = .ok b →
      ∃ tokens, tokenize source = .ok tokens ∧
        ∀ {ε σ : Type} (visit : Visitor ε σ) (s : σ), visit.NeverFails →
          ∃ nodes after, visit.walked b s = (.ok (), nodes, after) ∧
            List.Forall₂ Token.Begins (nodeTokens tokens) nodes) ∧
    ∀ {ε σ : Type} (visit : Visitor ε σ) (b : Block) (s : σ),
      (∀ n e after, visit.FailsAt s b.preorder n e after →
        visit.walked b s = (.error e, b.preorder.take n, after)) ∧
      ((∀ n e after, ¬ visit.FailsAt s b.preorder n e after) →
        ∃ after, visit.walked b s = (.ok (), b.preorder, after)) ∧
      (Block.walk visit b).run.run s = ((visit.walked b s).1, (visit.walked b s).2.2) := by
  refine ⟨fun source b h => ?_, fun visit b s => ?_⟩
  · obtain ⟨tokens, htokens, hbegins⟩ := Block.begins_of_ofSource h
    refine ⟨tokens, htokens, fun visit s hvisit => ?_⟩
    obtain ⟨after, hwalked⟩ := Visitor.walked_of_not_failsAt (b := b) (s := s)
      fun _ _ _ => hvisit.not_failsAt
    exact ⟨b.preorder, after, hwalked, hbegins⟩
  · exact ⟨fun n e after => Visitor.walked_of_failsAt, Visitor.walked_of_not_failsAt,
      visit.run_walk b s⟩

/-- A visitor that counts its calls, on all nodes of a text, and one that fails on the first text it
    is called on, with a node behind that is not visited. -/
theorem Block.walk_in_order_nested :
    let source := "#a\x7b#b\x7bx\x7d\x7dy"
    let inner : Node := .element "b" [[.text "x"]]
    let b : Block := [.element "a" [[inner]], .text "y"]
    let counting : Visitor String Nat := fun _ => modify (· + 1)
    let textless : Visitor String Nat := fun node => do
      modify (· + 1)
      if (Block.singleText? [node]).isSome then throw "a text" else pure ()
    (Block.ofSource source = .ok b ∧ counting.NeverFails ∧
      ∃ tokens, tokenize source = .ok tokens ∧
        ∃ nodes after, counting.walked b 0 = (.ok (), nodes, after) ∧
          List.Forall₂ Token.Begins (nodeTokens tokens) nodes) ∧
    textless.FailsAt 0 b.preorder 3 "a text" 3 ∧
      textless.walked b 0 = (.error "a text", [.element "a" [[inner]], inner, .text "x"], 3) := by
  intro source inner b counting textless
  have hsource : Block.ofSource source = .ok b := by decide +kernel
  have hcounting : counting.NeverFails := fun _ _ => rfl
  have hfails : textless.FailsAt 0 b.preorder 3 "a text" 3 := .later rfl (.later rfl (.now rfl))
  obtain ⟨tokens, htokens, hwalk⟩ := Block.walk_in_order.1 source b hsource
  exact ⟨⟨hsource, hcounting, tokens, htokens, hwalk counting 0 hcounting⟩, hfails,
    (Block.walk_in_order.2 textless b 0).1 3 "a text" 3 hfails⟩

end BraceMarkup
