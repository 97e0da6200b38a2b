/-
  Trees that go on behind other nodes.

  What tokens do to a tree under construction depends on the arguments that are
  open in it, on the kinds of the tokens and on the lengths of their texts.
  Neither the nodes in front of a tree nor the positions of its tokens play a
  part: the positions only come back in its faults.

  * `TreeBuilder.read`: the block that a tree under construction and some more
    tokens make;
  * `ofTokens_eq_read`: the block of a sequence of tokens;
  * `TreeBuilder.read_down`: tokens further down;
  * `TreeBuilder.read_onto`: other nodes in front;
  * `TreeBuilder.read_continued`: **tokens further down, behind other nodes**.
-/
import BraceMarkup.Proofs.ParseTree.Builder
import BraceMarkup.Proofs.Token.Shift

namespace BraceMarkup

/-! ## Reading tokens to their end -/

namespace TreeBuilder

/-- The block of a tree under construction whose arguments are all closed. -/
def finish (t : TreeBuilder) : Except ParseError Block :=
  match t.opened with
  | [] => .ok (ParseNode.toNodes t.nodes.reverse)
  | innermost :: _ => .error ⟨.unbalancedBlock, innermost.opening.position⟩

/-- The block that the tree makes with some more tokens. -/
def read (t : TreeBuilder) (tokens : List Token) : Except ParseError Block := do
  (← tokens.foldlM TreeBuilder.step t).finish

theorem read_cons (t : TreeBuilder) (token : Token) (rest : List Token) :
    t.read (token :: rest) = (t.step token >>= fun next => next.read rest) := by
  rw [read, List.foldlM_cons, bind_assoc]
  rfl

theorem read_append (t : TreeBuilder) (tokens later : List Token) :
    t.read (tokens ++ later) =
      (tokens.foldlM TreeBuilder.step t >>= fun next => next.read later) := by
  rw [read, List.foldlM_append, bind_assoc]
  rfl

/-- Tokens up to an end token. -/
theorem run_eq_read {first last : Token} {ending : Position} {tokens : List Token}
    (hk : ∀ token ∈ tokens, token.kind ≠ .endOfInput) (hlast : last.kind = .endOfInput)
    (t : TreeBuilder) :
    (t.run first ending (tokens ++ [last])).map ParseBlock.toBlock = t.read tokens := by
  induction tokens generalizing t with
  | nil =>
    obtain ⟨nodes, opened⟩ := t
    rw [List.nil_append]
    cases opened with
    | nil =>
      rw [run_of_ends ⟨hlast, rfl⟩]
      rfl
    | cons innermost outer =>
      rw [run_of_step_eq_error (step_endOfInput hlast) (by simp [Ends])]
      rfl
  | cons token rest ih =>
    rw [List.cons_append, run_cons (not_ends (hk token (by simp))), read_cons]
    cases t.step token with
    | error e => rfl
    | ok next => exact ih (fun token h => hk token (by simp [h])) next

end TreeBuilder

/-- The block of a sequence of tokens, of which only the last one ends it. -/
theorem ofTokens_eq_read {tokens : List Token} {last : Token}
    (hk : ∀ token ∈ tokens, token.kind ≠ .endOfInput) (hlast : last.kind = .endOfInput) :
    (ParseBlock.ofTokens (tokens ++ [last])).map ParseBlock.toBlock =
      TreeBuilder.empty.read tokens := by
  obtain ⟨first, rest, h⟩ := List.exists_cons_of_ne_nil (l := tokens ++ [last]) (by simp)
  rw [h, ParseBlock.ofTokens_cons, ← h]
  exact TreeBuilder.run_eq_read hk hlast .empty

/-! ## Tokens further down -/

mutual

/-- The node `k` lines further down. -/
def ParseNode.down (k : Nat) : ParseNode → ParseNode
  | .text token text => .text (token.down k) text
  | .element token name arguments =>
    .element (token.down k) name (ParseNode.downArguments k arguments)

/-- The nodes `k` lines further down. -/
def ParseNode.downNodes (k : Nat) : List ParseNode → List ParseNode
  | [] => []
  | node :: rest => node.down k :: ParseNode.downNodes k rest

/-- The argument `k` lines further down. -/
def ParseBlock.downArgument (k : Nat) : ParseBlock → ParseBlock
  | ⟨first, children, last⟩ => ⟨first.down k, ParseNode.downNodes k children, last.down k⟩

/-- The arguments `k` lines further down. -/
def ParseNode.downArguments (k : Nat) : List ParseBlock → List ParseBlock
  | [] => []
  | argument :: rest => ParseBlock.downArgument k argument :: ParseNode.downArguments k rest

end

mutual

theorem ParseNode.toNode_down (k : Nat) : ∀ node : ParseNode, (node.down k).toNode = node.toNode
  | .text token text => rfl
  | .element token name arguments => by
    rw [ParseNode.down, ParseNode.toNode, ParseNode.toNode, ParseNode.toArguments_down k arguments]

theorem ParseNode.toNodes_down (k : Nat) : ∀ nodes : List ParseNode,
    ParseNode.toNodes (ParseNode.downNodes k nodes) = ParseNode.toNodes nodes
  | [] => rfl
  | node :: rest => by
    rw [ParseNode.downNodes, ParseNode.toNodes, ParseNode.toNodes, ParseNode.toNode_down k node,
      ParseNode.toNodes_down k rest]

theorem ParseBlock.toBlock_down (k : Nat) : ∀ block : ParseBlock,
    (ParseBlock.downArgument k block).toBlock = block.toBlock
  | ⟨_, children, _⟩ => ParseNode.toNodes_down k children

theorem ParseNode.toArguments_down (k : Nat) : ∀ arguments : List ParseBlock,
    ParseNode.toArguments (ParseNode.downArguments k arguments) = ParseNode.toArguments arguments
  | [] => rfl
  | argument :: rest => by
    rw [ParseNode.downArguments, ParseNode.toArguments, ParseNode.toArguments,
      ParseBlock.toBlock_down k argument, ParseNode.toArguments_down k rest]

end

theorem ParseNode.downNodes_append (k : Nat) (ns ms : List ParseNode) :
    ParseNode.downNodes k (ns ++ ms) = ParseNode.downNodes k ns ++ ParseNode.downNodes k ms := by
  induction ns with
  | nil => rfl
  | cons n ns ih => rw [List.cons_append, downNodes, ih, downNodes, List.cons_append]

theorem ParseNode.downNodes_reverse (k : Nat) (ns : List ParseNode) :
    ParseNode.downNodes k ns.reverse = (ParseNode.downNodes k ns).reverse := by
  induction ns with
  | nil => rfl
  | cons n ns ih =>
    show downNodes k (n :: ns).reverse = (n.down k :: downNodes k ns).reverse
    rw [List.reverse_cons, downNodes_append, ih, List.reverse_cons]
    rfl

theorem ParseNode.downArguments_append (k : Nat) (as bs : List ParseBlock) :
    ParseNode.downArguments k (as ++ bs) =
      ParseNode.downArguments k as ++ ParseNode.downArguments k bs := by
  induction as with
  | nil => rfl
  | cons a as ih => rw [List.cons_append, downArguments, ih, downArguments, List.cons_append]

/-- The fault `k` lines further down. -/
def ParseError.down (e : ParseError) (k : Nat) : ParseError := ⟨e.kind, e.position.down k⟩

/-- The open argument and the nodes around it `k` lines further down. -/
def OpenElement.down (k : Nat) (e : OpenElement) : OpenElement where
  opening := e.opening.down k
  head := e.head.down k
  name := e.name
  arguments := ParseNode.downArguments k e.arguments
  before := ParseNode.downNodes k e.before

namespace TreeBuilder

/-- The tree under construction `k` lines further down. -/
def down (t : TreeBuilder) (k : Nat) : TreeBuilder :=
  ⟨ParseNode.downNodes k t.nodes, t.opened.map (OpenElement.down k)⟩

/-- A token does the same further down. -/
theorem step_down (t : TreeBuilder) (k : Nat) (token : Token) :
    (t.down k).step (token.down k) =
      ((t.step token).map (TreeBuilder.down · k)).mapError (ParseError.down · k) := by
  obtain ⟨nodes, opened⟩ := t
  have hexpectation : (down ⟨nodes, opened⟩ k).expectation = expectation ⟨nodes, opened⟩ := by
    cases opened <;> rfl
  rw [step, step, show (token.down k).kind = token.kind from rfl, hexpectation]
  cases token.kind with
  | text => rfl
  | elementName =>
    simp only [down, List.length_map]
    split <;> rfl
  | argumentOpen => rcases nodes with _ | ⟨_ | _, _⟩ <;> rfl
  | argumentClose =>
    cases opened with
    | nil => rfl
    | cons innermost outer =>
      have hsize : (token.down k).text = token.text ∧
          (innermost.down k).opening.text = innermost.opening.text := ⟨rfl, rfl⟩
      simp only [down, List.map_cons, hsize]
      split
      · refine congrArg Except.ok ?_
        simp only [ParseNode.downNodes, ParseNode.down, ParseNode.downArguments_append,
          ← ParseNode.downNodes_reverse]
        rfl
      · rfl
  | endOfInput => cases opened <;> rfl

theorem finish_down (t : TreeBuilder) (k : Nat) :
    (t.down k).finish = t.finish.mapError (ParseError.down · k) := by
  obtain ⟨nodes, opened⟩ := t
  cases opened with
  | nil =>
    rw [finish, down, finish, ← ParseNode.downNodes_reverse, ParseNode.toNodes_down]
    rfl
  | cons innermost outer => rfl

/-- Tokens further down make the same block, or the same fault further down. -/
theorem read_down (t : TreeBuilder) (k : Nat) (tokens : List Token) :
    (t.down k).read (tokens.map (·.down k)) =
      (t.read tokens).mapError (ParseError.down · k) := by
  induction tokens generalizing t with
  | nil => exact finish_down t k
  | cons token rest ih =>
    rw [List.map_cons, read_cons, read_cons, step_down]
    cases t.step token with
    | error e => rfl
    | ok next => exact ih next

end TreeBuilder

/-! ## Other nodes in front -/

/-- Open arguments with more nodes in front of the outermost element; nodes are listed last
    first. -/
def OpenElement.ontoAll (nodes : List ParseNode) : List OpenElement → List OpenElement
  | [] => []
  | [e] => [{ e with before := e.before ++ nodes }]
  | e :: outer => e :: ontoAll nodes outer

namespace TreeBuilder

/-- The tree under construction with more nodes in front; nodes are listed last first. -/
def onto (t : TreeBuilder) (front : List ParseNode) : TreeBuilder where
  nodes := if t.opened.isEmpty then t.nodes ++ front else t.nodes
  opened := OpenElement.ontoAll front t.opened

/-- A token does the same behind other nodes, unless it could continue the last of them. -/
theorem step_onto (t : TreeBuilder) {front : List ParseNode} (hfront : EndsInText front)
    (token : Token) :
    (t.onto front).step token = (t.step token).map (TreeBuilder.onto · front) := by
  obtain ⟨nodes, opened⟩ := t
  rw [step, step]
  cases token.kind with
  | text => cases opened <;> rfl
  | elementName =>
    have hlength : (OpenElement.ontoAll front opened).length = opened.length := by
      induction opened with
      | nil => rfl
      | cons e outer ih => cases outer <;> simp_all [OpenElement.ontoAll]
    simp only [onto, hlength]
    split
    · rfl
    · cases opened <;> rfl
  | argumentOpen =>
    -- only where nothing stands behind the other nodes could an argument be opened in them
    rcases nodes with _ | ⟨_ | _, _⟩
    · cases opened with
      | nil =>
        rcases front with _ | ⟨_ | _, _⟩
        · rfl
        · rfl
        · exact absurd rfl (hfront _ _ _ _)
      | cons e outer => cases outer <;> rfl
    · rcases opened with _ | ⟨_, _ | _⟩ <;> rfl
    · cases opened <;> rfl
  | argumentClose =>
    rcases opened with _ | ⟨_, _ | _⟩
    · rfl
    · simp only [onto, OpenElement.ontoAll]
      split <;> rfl
    · simp only [onto, OpenElement.ontoAll]
      split <;> rfl
  | endOfInput => rcases opened with _ | ⟨_, _ | _⟩ <;> rfl

theorem finish_onto (t : TreeBuilder) (front : List ParseNode) :
    (t.onto front).finish = t.finish.map (ParseNode.toNodes front.reverse ++ ·) := by
  obtain ⟨nodes, opened⟩ := t
  rcases opened with _ | ⟨_, _ | _⟩
  · simp [finish, onto, OpenElement.ontoAll, Except.map]
  · rfl
  · rfl

/-- Tokens behind other nodes make the same block behind these, or the same fault. -/
theorem read_onto (t : TreeBuilder) {front : List ParseNode} (hfront : EndsInText front)
    (tokens : List Token) :
    (t.onto front).read tokens = (t.read tokens).map (ParseNode.toNodes front.reverse ++ ·) := by
  induction tokens generalizing t with
  | nil => exact finish_onto t front
  | cons token rest ih =>
    rw [read_cons, read_cons, step_onto t hfront]
    cases t.step token with
    | error e => rfl
    | ok next => exact ih next

/-- **Tokens further down, behind other nodes**, make the same block behind these, or the same fault
    further down. -/
theorem read_continued {front : List ParseNode} (hfront : EndsInText front) (k : Nat)
    (tokens : List Token) :
    (⟨front, []⟩ : TreeBuilder).read (tokens.map (·.down k)) =
      ((empty.read tokens).map (ParseNode.toNodes front.reverse ++ ·)).mapError
        (ParseError.down · k) := by
  have h := read_onto (empty.down k) hfront (tokens.map (·.down k))
  rw [read_down] at h
  refine h.trans ?_
  cases empty.read tokens <;> rfl

end TreeBuilder

end BraceMarkup
