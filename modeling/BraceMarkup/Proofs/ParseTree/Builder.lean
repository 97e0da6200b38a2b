/-
  Trees that are built token by token.

  Reading by descent holds the arguments that are open in the calls that have
  not returned yet.  A tree under construction holds them as a list instead, so
  that every token is one step, and what holds of all steps holds of the whole
  tree.  An argument goes to the element right before it: where an argument is
  not expected, no element stands right before, since reading an element reads
  all of its arguments.

  * `TreeBuilder.step`: takes one more token into a tree under construction,
    or says why it cannot stand there;
  * `TreeBuilder.run`: takes all tokens up to the end token;
  * `ParseNode.opensArgument_readElement`: no argument is left behind an element;
  * `TreeBuilder.run_readElement`, `TreeBuilder.run_readArguments`,
    `TreeBuilder.run_readArgument`, `TreeBuilder.run_readContent`: each call
    takes its tokens into the tree, and fails where the tree does not take them;
  * `ParseBlock.ofTokens_cons`: **both ways of reading give the same**.
-/
import BraceMarkup.ParseTree

namespace BraceMarkup

/-! ## Trees under construction -/

/-- An argument under construction, and the element that it belongs to. -/
structure OpenElement where
  /-- The token that opened the argument. -/
  opening : Token
  /-- The name token of the element. -/
  head : Token
  /-- The name of the element. -/
  name : String
  /-- The element's earlier arguments. -/
  arguments : List ParseBlock
  /-- The nodes before the element, last first. -/
  before : List ParseNode

/-- A tree under construction. -/
structure TreeBuilder where
  /-- The nodes of the innermost block so far, last first. -/
  nodes : List ParseNode
  /-- The arguments that are not closed yet, innermost first. -/
  opened : List OpenElement

namespace TreeBuilder

/-- The tree before its first token. -/
def empty : TreeBuilder := ⟨[], []⟩

/-- What may stand next, apart from an argument of the element read last. -/
def expectation (t : TreeBuilder) : Expectation :=
  if t.opened.isEmpty then .textOrElement else .textElementOrClose

/-- The fault of a sequence that ends here, at `ending`. -/
def endFault (t : TreeBuilder) (ending : Position) : ParseError :=
  match t.opened with
  | [] => ⟨.missingEndOfInput, ending⟩
  | innermost :: _ => ⟨.unbalancedBlock, innermost.opening.position⟩

/-- Takes one more token into the tree.  An argument goes to the element right before it. -/
def step (t : TreeBuilder) (token : Token) : Except ParseError TreeBuilder :=
  match token.kind with
  | .text => .ok { t with nodes := .ofText token :: t.nodes }
  | .elementName =>
    if t.opened.length = maxNesting then .error ⟨.nestingTooDeep, token.position⟩
    else .ok { t with nodes := .element token (elementName token) [] :: t.nodes }
  | .argumentOpen =>
    match t.nodes with
    | .element head name arguments :: before =>
      .ok { nodes := [], opened := ⟨token, head, name, arguments, before⟩ :: t.opened }
    | _ => .error ⟨.unexpectedToken t.expectation token.kind, token.position⟩
  | .argumentClose =>
    match t.opened with
    | [] => .error ⟨.unexpectedToken t.expectation token.kind, token.position⟩
    | innermost :: outer =>
      if token.text.utf8ByteSize = innermost.opening.text.utf8ByteSize then
        let argument := ⟨innermost.opening, t.nodes.reverse, token⟩
        let element := .element innermost.head innermost.name (innermost.arguments ++ [argument])
        .ok { nodes := element :: innermost.before, opened := outer }
      else .error ⟨.mismatchedClose innermost.opening.text token.text, token.position⟩
  | .endOfInput => .error (t.endFault token.position)

/-- Takes tokens into the tree up to an end token outside of all arguments.  `first` is the first
    token of the whole sequence, which ends at `ending`. -/
def run (first : Token) (ending : Position) (t : TreeBuilder) :
    List Token → Except ParseError ParseBlock
  | [] => .error (t.endFault ending)
  | token :: rest =>
    if token.kind = .endOfInput ∧ t.opened.isEmpty then .ok ⟨first, t.nodes.reverse, token⟩
    else do (← t.step token).run first ending rest

end TreeBuilder

/-! ## One token -/

namespace TreeBuilder

variable {t next : TreeBuilder} {first token : Token} {ending : Position} {e : ParseError}

/-- The end token of a whole sequence. -/
def Ends (t : TreeBuilder) (token : Token) : Prop := token.kind = .endOfInput ∧ t.opened.isEmpty

theorem not_ends (hk : token.kind ≠ .endOfInput) : ¬ t.Ends token := fun hend => hk hend.1

theorem run_of_ends (hend : t.Ends token) (rest : List Token) :
    t.run first ending (token :: rest) = .ok ⟨first, t.nodes.reverse, token⟩ := if_pos hend

/-- A token that does not end the sequence is a step of its own. -/
theorem run_cons (hend : ¬ t.Ends token) (rest : List Token) :
    t.run first ending (token :: rest) =
      (t.step token >>= fun next => next.run first ending rest) := if_neg hend

/-- A token that the tree takes. -/
theorem run_of_step (hk : token.kind ≠ .endOfInput) (h : t.step token = .ok next)
    (rest : List Token) : t.run first ending (token :: rest) = next.run first ending rest := by
  rw [run_cons (not_ends hk), h]
  rfl

/-- A token that the tree does not take ends the run, whatever is behind it. -/
theorem run_of_step_eq_error (h : t.step token = .error e) (hend : ¬ t.Ends token)
    (rest : List Token) : t.run first ending (token :: rest) = .error e := by
  rw [run_cons hend, h]
  rfl

theorem step_text (hk : token.kind = .text) :
    t.step token = .ok ⟨.ofText token :: t.nodes, t.opened⟩ := by
  simp [step, hk]

theorem step_elementName (hk : token.kind = .elementName) : t.step token =
    if t.opened.length = maxNesting then .error ⟨.nestingTooDeep, token.position⟩
    else .ok ⟨.element token (elementName token) [] :: t.nodes, t.opened⟩ := by
  simp [step, hk]

/-- An argument that is opened behind its element. -/
theorem step_argumentOpen (hk : token.kind = .argumentOpen) {head : Token} {name : String}
    {arguments : List ParseBlock} {before : List ParseNode}
    (hn : t.nodes = .element head name arguments :: before) :
    t.step token = .ok ⟨[], ⟨token, head, name, arguments, before⟩ :: t.opened⟩ := by
  simp [step, hk, hn]

theorem step_argumentClose (hk : token.kind = .argumentClose) {innermost : OpenElement}
    {outer : List OpenElement} (ho : t.opened = innermost :: outer) : t.step token =
    if token.text.utf8ByteSize = innermost.opening.text.utf8ByteSize then
      .ok ⟨.element innermost.head innermost.name (innermost.arguments ++
        [⟨innermost.opening, t.nodes.reverse, token⟩]) :: innermost.before, outer⟩
    else .error ⟨.mismatchedClose innermost.opening.text token.text, token.position⟩ := by
  simp [step, hk, ho]

/-- A closing run outside of all arguments. -/
theorem step_strayClose (hk : token.kind = .argumentClose) (ho : t.opened = []) :
    t.step token = .error ⟨.unexpectedToken .textOrElement .argumentClose, token.position⟩ := by
  simp [step, hk, ho, expectation]

theorem step_endOfInput (hk : token.kind = .endOfInput) :
    t.step token = .error (t.endFault token.position) := by
  simp [step, hk]

end TreeBuilder

/-! ## Elements take all of their arguments -/

theorem opensArgument_cons {token : Token} {rest : List Token} :
    opensArgument (token :: rest) = true ↔ token.kind = .argumentOpen := decide_eq_true_iff

theorem ParseNode.opensArgument_readArguments (ending : Position) (depth : Nat) :
    ∀ (arguments : List ParseBlock) (tokens : List Token) {bound : Nat} (h : tokens.length < bound)
      {r : Reading (List ParseBlock) bound},
      ParseNode.readArguments ending depth arguments tokens h = .ok r →
        opensArgument r.rest = false := by
  intro arguments tokens bound h r hr
  rw [ParseNode.readArguments] at hr
  split at hr
  · cases hargument : ParseBlock.readArgument ending depth tokens with
    | error e => rw [hargument] at hr; cases hr
    | ok argument =>
      rw [hargument] at hr
      have := argument.fewer
      exact ParseNode.opensArgument_readArguments ending depth _ argument.rest _ hr
  · next hopens =>
    cases hr
    exact Bool.eq_false_iff.2 hopens
termination_by _ tokens => tokens.length

/-- **No argument is left behind an element** that was read. -/
theorem ParseNode.opensArgument_readElement {ending : Position} {depth : Nat} {tokens : List Token}
    {r : Reading ParseNode tokens.length}
    (h : ParseNode.readElement ending depth tokens = .ok r) : opensArgument r.rest = false := by
  unfold ParseNode.readElement at h
  split at h
  · cases h
  · split at h
    · cases h
    · split at h
      · cases h
      · next rest _ _ =>
        cases harguments : ParseNode.readArguments ending (depth + 1) [] rest
            (Nat.lt_add_one _) with
        | error e => rw [harguments] at h; cases h
        | ok arguments =>
          rw [harguments] at h
          cases h
          exact ParseNode.opensArgument_readArguments ending _ _ _ _ harguments

/-! ## Each call takes its tokens into the tree -/

namespace TreeBuilder

/-- Nodes, last first, behind which no argument can be opened. -/
def EndsInText (nodes : List ParseNode) : Prop :=
  ∀ head name arguments before, nodes ≠ .element head name arguments :: before

/-- Where an argument begins, no element stands right before: it would have read the argument. -/
def Apart (nodes : List ParseNode) (tokens : List Token) : Prop :=
  opensArgument tokens = true → EndsInText nodes

theorem apart_nil (tokens : List Token) : Apart [] tokens := by
  rintro - _ _ _ _ ⟨⟩

theorem apart_text {token : Token} {text : String} {nodes : List ParseNode} (tokens : List Token) :
    Apart (.text token text :: nodes) tokens := by
  rintro - _ _ _ _ ⟨⟩

theorem apart_of_not_opensArgument {nodes : List ParseNode} {tokens : List Token}
    (h : opensArgument tokens = false) : Apart nodes tokens := by
  intro hopens
  rw [h] at hopens
  cases hopens

/-- An argument that is not opened behind an element. -/
theorem step_of_apart {t : TreeBuilder} {token : Token} (hk : token.kind = .argumentOpen)
    {rest : List Token} (h : Apart t.nodes (token :: rest)) :
    t.step token = .error ⟨.unexpectedToken t.expectation .argumentOpen, token.position⟩ := by
  obtain ⟨nodes, opened⟩ := t
  rw [step, hk]
  rcases nodes with _ | ⟨_ | _, _⟩
  · rfl
  · rfl
  · exact absurd rfl (h (opensArgument_cons.2 hk) _ _ _ _)

mutual

/-- Reading an element takes its tokens into the tree, behind the nodes that it holds. -/
theorem run_readElement (first : Token) (ending : Position) (t : TreeBuilder) {token : Token}
    (hk : token.kind = .elementName) (rest : List Token) :
    t.run first ending (token :: rest) =
      (ParseNode.readElement ending t.opened.length (token :: rest) >>= fun r =>
        run first ending ⟨r.value :: t.nodes, t.opened⟩ r.rest) := by
  have hstep := step_elementName (t := t) hk
  rw [ParseNode.readElement, if_neg (not_not_intro hk)]
  split at hstep
  · next hdepth =>
    rw [run_of_step_eq_error hstep (not_ends (by simp [hk])), if_pos hdepth]
    rfl
  · next hdepth =>
    have harguments := run_readArguments first ending t token (elementName token) [] rest
      (Nat.lt_add_one rest.length)
    rw [run_of_step (by simp [hk]) hstep, if_neg hdepth]
    refine harguments.trans ?_
    cases ParseNode.readArguments ending (t.opened.length + 1) [] rest (Nat.lt_add_one _) <;> rfl
termination_by 2 * (rest.length + 1)

/-- Reading the arguments of an element takes their tokens into the tree. -/
theorem run_readArguments (first : Token) (ending : Position) (t : TreeBuilder) (head : Token)
    (name : String) (arguments : List ParseBlock) (tokens : List Token) {bound : Nat}
    (h : tokens.length < bound) :
    run first ending ⟨.element head name arguments.reverse :: t.nodes, t.opened⟩ tokens =
      (ParseNode.readArguments ending (t.opened.length + 1) arguments tokens h >>= fun r =>
        run first ending ⟨.element head name r.value :: t.nodes, t.opened⟩ r.rest) := by
  rw [ParseNode.readArguments]
  split
  · next hopens =>
    rw [run_readArgument first ending t head name arguments.reverse tokens hopens]
    cases hargument : ParseBlock.readArgument ending (t.opened.length + 1) tokens with
    | error e => rfl
    | ok argument =>
      have := argument.fewer
      have hrest := run_readArguments first ending t head name (argument.value :: arguments)
        argument.rest (Nat.lt_trans argument.fewer h)
      rw [List.reverse_cons] at hrest
      exact hrest
  · rfl
termination_by 2 * tokens.length + 1

/-- Reading one argument takes its tokens into the tree, behind the earlier arguments. -/
theorem run_readArgument (first : Token) (ending : Position) (t : TreeBuilder) (head : Token)
    (name : String) (arguments : List ParseBlock) (tokens : List Token)
    (hopens : opensArgument tokens = true) :
    run first ending ⟨.element head name arguments :: t.nodes, t.opened⟩ tokens =
      (ParseBlock.readArgument ending (t.opened.length + 1) tokens >>= fun r =>
        run first ending ⟨.element head name (arguments ++ [r.value]) :: t.nodes, t.opened⟩
          r.rest) := by
  cases tokens with
  | nil => cases hopens
  | cons opening rest =>
    have hk : opening.kind = .argumentOpen := opensArgument_cons.1 hopens
    rw [run_of_step (by simp [hk]) (step_argumentOpen hk rfl), ParseBlock.readArgument,
      if_neg (not_not_intro hk)]
    exact run_readContent first ending t ⟨opening, head, name, arguments, t.nodes⟩ [] rest
      (Nat.lt_add_one _) rfl (apart_nil rest)
termination_by 2 * tokens.length

/-- Reading an argument to its end takes the tokens into the tree, and closes the argument. -/
theorem run_readContent (first : Token) (ending : Position) (t : TreeBuilder) (e : OpenElement)
    (nodes : List ParseNode) (tokens : List Token) {bound : Nat} (h : tokens.length < bound)
    (hbefore : e.before = t.nodes) (hapart : Apart nodes tokens) :
    run first ending ⟨nodes, e :: t.opened⟩ tokens =
      (ParseBlock.readContent ending (t.opened.length + 1) e.opening nodes tokens h >>= fun r =>
        run first ending ⟨.element e.head e.name (e.arguments ++ [r.value]) :: t.nodes, t.opened⟩
          r.rest) := by
  cases tokens with
  | nil => rw [ParseBlock.readContent]; rfl
  | cons token rest =>
    rw [ParseBlock.readContent]
    cases hk : token.kind with
    | text =>
      rw [run_of_step (by simp [hk]) (step_text hk)]
      exact run_readContent first ending t e _ rest _ hbefore (apart_text rest)
    | elementName =>
      rw [run_readElement first ending ⟨nodes, e :: t.opened⟩ hk rest]
      show (ParseNode.readElement ending (t.opened.length + 1) (token :: rest) >>= _) = _
      cases helement : ParseNode.readElement ending (t.opened.length + 1) (token :: rest) with
      | error fault => rfl
      | ok element =>
        have := element.fewer
        exact run_readContent first ending t e _ element.rest _ hbefore
          (apart_of_not_opensArgument (ParseNode.opensArgument_readElement helement))
    | argumentOpen =>
      rw [run_of_step_eq_error (step_of_apart hk hapart) (not_ends (by simp [hk]))]
      rfl
    | argumentClose =>
      have hstep := step_argumentClose (t := ⟨nodes, e :: t.opened⟩) hk rfl
      split at hstep
      · next hsize =>
        rw [run_of_step (by simp [hk]) hstep, hbefore]
        simp only [if_neg (not_not_intro hsize)]
        rfl
      · next hsize =>
        rw [run_of_step_eq_error hstep (not_ends (by simp [hk]))]
        simp only [if_pos hsize]
        rfl
    | endOfInput =>
      rw [run_of_step_eq_error (step_endOfInput hk) (by simp [Ends])]
      rfl
termination_by 2 * tokens.length + 1

end

/-- Reading a document to its end takes all tokens into the tree. -/
theorem run_readDocument (first : Token) (ending : Position) (nodes : List ParseNode)
    (tokens : List Token) (hapart : Apart nodes tokens) :
    run first ending ⟨nodes, []⟩ tokens = ParseBlock.readDocument first ending nodes tokens := by
  cases tokens with
  | nil => rw [ParseBlock.readDocument]; rfl
  | cons token rest =>
    rw [ParseBlock.readDocument]
    cases hk : token.kind with
    | text =>
      rw [run_of_step (by simp [hk]) (step_text hk)]
      exact run_readDocument first ending _ rest (apart_text rest)
    | elementName =>
      rw [run_readElement first ending ⟨nodes, []⟩ hk rest]
      show (ParseNode.readElement ending 0 (token :: rest) >>= _) = _
      cases helement : ParseNode.readElement ending 0 (token :: rest) with
      | error fault => rfl
      | ok element =>
        have := element.fewer
        exact run_readDocument first ending _ element.rest
          (apart_of_not_opensArgument (ParseNode.opensArgument_readElement helement))
    | argumentOpen =>
      rw [run_of_step_eq_error (step_of_apart hk hapart) (not_ends (by simp [hk]))]
      rfl
    | argumentClose =>
      rw [run_of_step_eq_error (step_strayClose hk rfl) (not_ends (by simp [hk]))]
    | endOfInput =>
      rw [run_of_ends ⟨hk, rfl⟩]
      rfl
termination_by tokens.length

end TreeBuilder

/-- **Both ways of reading give the same**: the tree of a sequence of tokens is the one that is
    built of them, and a fault of the one is the fault of the other. -/
theorem ParseBlock.ofTokens_cons (first : Token) (rest : List Token) :
    ParseBlock.ofTokens (first :: rest) =
      TreeBuilder.empty.run first (endPosition (first :: rest)) (first :: rest) :=
  (TreeBuilder.run_readDocument first _ [] _ (TreeBuilder.apart_nil _)).symm

end BraceMarkup
