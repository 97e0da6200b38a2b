/-
  Every level of a document that was read.

  That a block can be written says what its nodes are and what stands behind
  what, at every level: in the block itself, and in every argument.  What a
  block that is read has beyond that, it has from the parser, which nests
  elements only so deep, and from the scanner, which takes a closing brace
  outside of all arguments for a fault.

  * `Block.LevelShape`: the nodes of one level;
  * `Block.Writable.levels`: a block that can be written has this shape at
    every level;
  * `ParseNode.nesting_toNodes`: elements are nested as deep as there is room;
  * `Braceless`: among some tokens, no text outside of all arguments holds a
    closing brace; `Scanner.braceless_run`: so it is with what is scanned;
  * `Block.shape_of_ofSource`: **the shape of every document that was read**.
-/
import BraceMarkup.Proofs.Block.Arguments
import BraceMarkup.Proofs.Source.Nesting
import BraceMarkup.Proofs.Source.Shape

namespace BraceMarkup

/-! ## The nodes of one level -/

/-- The nodes of one level of a document that was read. -/
structure Block.LevelShape (b : Block) : Prop where
  /-- No text is empty. -/
  texts : ∀ s, .text s ∈ b → s ≠ ""
  /-- No text stands right behind a text, and none that begins with a closing brace stands right
      behind an element. -/
  apart : b.IsChain Node.MayPrecede
  /-- Elements have arguments, and names of proper characters. -/
  elements : ∀ name arguments, .element name arguments ∈ b →
    arguments ≠ [] ∧ ∀ c ∈ name.toList, isNameChar c = true

theorem Block.Writable.levelShape {b : Block} (h : Block.Writable b) : b.LevelShape := by
  induction b with
  | nil => exact ⟨by simp, .nil, by simp⟩
  | cons node rest ih =>
    obtain ⟨hnode, hnext, hrest⟩ := h
    obtain ⟨htexts, hapart, helements⟩ := ih hrest
    refine ⟨?_, hapart.cons hnext, ?_⟩
    · intro s hs
      rcases List.mem_cons.1 hs with rfl | hs
      · exact hnode
      · exact htexts s hs
    · intro name arguments hm
      rcases List.mem_cons.1 hm with rfl | hm
      · exact ⟨hnode.2.1, hnode.1⟩
      · exact helements name arguments hm

mutual

/-- The arguments in a node that can be written. -/
theorem Node.Writable.allArguments : ∀ {node : Node}, node.Writable →
    ∀ argument ∈ Block.allArguments [node], Block.Writable argument
  | .text _, _ => by simp [Block.allArguments, Block.preorder, Node.preorder, Node.directArguments]
  | .element name arguments, ⟨_, _, harguments⟩ => by
    rw [Block.allArguments_element]
    intro argument ha
    have hall := Node.WritableArguments.allArguments harguments
    rcases List.mem_append.1 ha with ha | ha
    · exact (hall argument ha).1
    · obtain ⟨outer, houter, ha⟩ := List.mem_flatMap.1 ha
      exact (hall outer houter).2 argument ha

/-- The arguments in a block that can be written. -/
theorem Block.Writable.allArguments : ∀ {b : Block}, Block.Writable b →
    ∀ argument ∈ b.allArguments, Block.Writable argument
  | [], _ => by simp [Block.allArguments, Block.preorder]
  | node :: rest, ⟨hnode, _, hrest⟩ => by
    rw [Block.allArguments_cons]
    intro argument ha
    rcases List.mem_append.1 ha with ha | ha
    · exact Node.Writable.allArguments hnode argument ha
    · exact Block.Writable.allArguments hrest argument ha

/-- Arguments that can be written, and the arguments in them. -/
theorem Node.WritableArguments.allArguments : ∀ {arguments : List Block},
    Node.WritableArguments arguments → ∀ argument ∈ arguments,
      Block.Writable argument ∧ ∀ inner ∈ argument.allArguments, Block.Writable inner
  | [], _ => by simp
  | first :: rest, ⟨hfirst, hrest⟩ => by
    simp only [List.mem_cons, forall_eq_or_imp]
    exact ⟨⟨hfirst, Block.Writable.allArguments hfirst⟩,
      Node.WritableArguments.allArguments hrest⟩

end

/-- A block that can be written has the shape at every level. -/
theorem Block.Writable.levels {b : Block} (h : Block.Writable b) :
    ∀ level ∈ b :: b.allArguments, level.LevelShape := by
  intro level hl
  rcases List.mem_cons.1 hl with rfl | hl
  · exact h.levelShape
  · exact (h.allArguments level hl).levelShape

/-! ## How deep elements are nested -/

mutual

/-- A node for which there is room. -/
theorem ParseNode.nesting_toNode : ∀ (node : ParseNode) {room : Nat}, node.WellFormed room →
    node.toNode.nesting ≤ room
  | .text _ _, _, _ => Nat.zero_le _
  | .element _ _ arguments, room, ⟨_, _, hpos, harguments⟩ => by
    have hinside := ParseNode.nesting_toArguments arguments harguments
    rw [ParseNode.toNode, Node.nesting]
    omega

/-- Nodes for which there is room. -/
theorem ParseNode.nesting_toNodes : ∀ (nodes : List ParseNode) {room : Nat},
    ParseNode.NodesWellFormed nodes room → Block.nesting (ParseNode.toNodes nodes) ≤ room
  | [], _, _ => Nat.zero_le _
  | node :: rest, _, ⟨hnode, hrest⟩ =>
    Nat.max_le.2 ⟨ParseNode.nesting_toNode node hnode, ParseNode.nesting_toNodes rest hrest⟩

/-- Arguments for which there is room. -/
theorem ParseNode.nesting_toArguments : ∀ (arguments : List ParseBlock) {room : Nat},
    ParseNode.ArgumentsWellFormed arguments room →
      Node.nestingArguments (ParseNode.toArguments arguments) ≤ room
  | [], _, _ => Nat.zero_le _
  | ⟨_, children, _⟩ :: rest, _, ⟨⟨_, hchildren, _⟩, hrest⟩ =>
    Nat.max_le.2 ⟨ParseNode.nesting_toNodes children hchildren,
      ParseNode.nesting_toArguments rest hrest⟩

end

/-! ## Texts outside of all arguments -/

mutual

/-- A node leaves open what is open in front of it. -/
theorem ParseNode.openBehind_flatten : ∀ (node : ParseNode) {room : Nat}, node.WellFormed room →
    ∀ n, node.flatten.foldl openBehind n = n
  | .text token _, _, ⟨hk, _⟩, n => by
    simp [ParseNode.flatten, openBehind, hk]
  | .element token _ arguments, _, ⟨hk, _, _, harguments⟩, n => by
    rw [ParseNode.flatten, List.foldl_cons, openBehind, hk]
    exact ParseNode.openBehind_flattenArguments arguments harguments n

/-- Nodes leave open what is open in front of them. -/
theorem ParseNode.openBehind_flattenNodes : ∀ (nodes : List ParseNode) {room : Nat},
    ParseNode.NodesWellFormed nodes room → ∀ n,
      (ParseNode.flattenNodes nodes).foldl openBehind n = n
  | [], _, _, _ => rfl
  | node :: rest, _, ⟨hnode, hrest⟩, n => by
    rw [ParseNode.flattenNodes, List.foldl_append, ParseNode.openBehind_flatten node hnode,
      ParseNode.openBehind_flattenNodes rest hrest]

/-- Arguments leave open what is open in front of them. -/
theorem ParseNode.openBehind_flattenArguments : ∀ (arguments : List ParseBlock) {room : Nat},
    ParseNode.ArgumentsWellFormed arguments room → ∀ n,
      (ParseNode.flattenArguments arguments).foldl openBehind n = n
  | [], _, _, _ => rfl
  | ⟨first, children, last⟩ :: rest, _, ⟨⟨hfirst, hchildren, hlast, _⟩, hrest⟩, n => by
    have hopen : openBehind n first = n + 1 := by simp [openBehind, hfirst]
    have hclose : openBehind (n + 1) last = n := by simp [openBehind, hlast]
    simp only [ParseNode.flattenArguments, ParseBlock.flattenArgument, List.cons_append,
      List.append_assoc, List.nil_append, List.foldl_cons, List.foldl_append, hopen,
      ParseNode.openBehind_flattenNodes children hchildren, hclose]
    exact ParseNode.openBehind_flattenArguments rest hrest n

end

/-- No text outside of all arguments holds a closing brace, if `n` arguments are open in front of
    the tokens. -/
def Braceless : (n : Nat) → List Token → Prop
  | _, [] => True
  | n, token :: rest =>
    (n = 0 → token.kind = .text → '}' ∉ token.text.toList) ∧ Braceless (openBehind n token) rest

theorem Braceless.append {n : Nat} {tokens later : List Token} :
    Braceless n (tokens ++ later) ↔
      Braceless n tokens ∧ Braceless (tokens.foldl openBehind n) later := by
  induction tokens generalizing n with
  | nil => simp [Braceless]
  | cons token rest ih => simp [Braceless, ih, and_assoc]

/-- A token that is no text. -/
theorem Braceless.cons {n : Nat} {token : Token} {rest : List Token} (hk : token.kind ≠ .text)
    (h : Braceless (openBehind n token) rest) : Braceless n (token :: rest) :=
  ⟨fun _ ht => absurd ht hk, h⟩

/-- The pending text in front of other tokens. -/
theorem Braceless.textToken {n : Nat} {p : Position} {pending : List Char} {tokens : List Token}
    (hpending : n = 0 → '}' ∉ pending) (h : Braceless n tokens) :
    Braceless n (textToken p pending ++ tokens) := by
  unfold BraceMarkup.textToken
  split
  · exact h
  · exact ⟨fun hn _ => by simpa using hpending hn, h⟩

/-- Runs that close arguments, in front of other tokens. -/
theorem Braceless.closed {p : Position} {count : Nat} {opened left : List OpenArgument}
    {closed tokens : List Token} (hc : Closed p count opened closed left)
    (h : Braceless left.length tokens) : Braceless opened.length (closed ++ tokens) := by
  induction hc with
  | done => exact h
  | next _ ih => exact .cons Token.Kind.noConfusion (ih h)

/-- Outside of all arguments, what is pending holds no closing brace. -/
def Scanner.PendingBraceless (s : Scanner) : Prop := s.opened = [] → '}' ∉ s.pending

theorem Scanner.PendingBraceless.keep {s : Scanner} {n : Nat} (h : s.PendingBraceless)
    (hn : s.opened = [] → '}' ∉ s.rest.take n) : (s.keep n).PendingBraceless := by
  intro ho hm
  rcases List.mem_append.1 hm with hm | hm
  · exact hn ho (List.mem_reverse.1 hm)
  · exact h ho hm

/-- Inside of an argument that was opened just now. -/
theorem Scanner.pendingBraceless_openArgument (s : Scanner) (braces : Nat) :
    (s.openArgument braces).2.PendingBraceless := by
  intro ho
  rw [Scanner.openArgument_opened] at ho
  cases ho

/-- The run that opens an argument, in front of other tokens. -/
theorem Braceless.openArgument {s : Scanner} {braces : Nat} {tokens : List Token}
    (h : Braceless (s.openArgument braces).2.opened.length tokens) :
    Braceless s.opened.length ((s.openArgument braces).1 :: tokens) := by
  rw [Scanner.openArgument_opened] at h
  exact .cons Token.Kind.noConfusion h

/-- A name and the spaces behind it hold no closing brace. -/
theorem brace_not_mem_name {cs : List Char} {spaces : Nat}
    (hs : spaces = runLength ' ' (('#' :: cs).drop (nameLength ('#' :: cs)))) :
    '}' ∉ ('#' :: cs).take (nameLength ('#' :: cs) + spaces) := by
  rw [List.take_add, take_nameLength, hs, take_runLength]
  intro hm
  rcases List.mem_append.1 hm with hm | hm
  · rcases List.mem_cons.1 hm with heq | hm
    · cases heq
    · have hproper := List.all_eq_true.1 List.all_takeWhile _ hm
      revert hproper
      decide
  · cases (List.mem_replicate.1 hm).2

/-- **Among the tokens that a scanner completes, no text outside of all arguments holds a closing
    brace.**  A brace there ends the run with a fault. -/
theorem Scanner.braceless_run {s : Scanner} {tokens : List Token} (h : s.run = .ok tokens) :
    s.PendingBraceless → Braceless s.opened.length tokens := by
  refine Scanner.run_induction (motive := fun s tokens =>
    s.PendingBraceless → Braceless s.opened.length tokens) ?_ ?_ h
  · intro s _ ho hpending
    refine .textToken (fun _ => hpending ho) (.cons Token.Kind.noConfusion trivial)
  · intro s next tokens later hs ih hpending
    cases hs with
    | char hs hh hb =>
      refine ih (hpending.keep fun _ => ?_)
      simpa [hs] using Ne.symm hb
    | hash hs hn hsp hb hlt =>
      refine ih (hpending.keep fun _ => ?_)
      rw [hs] at hn hsp ⊢
      subst hn
      exact brace_not_mem_name hsp
    | short hs hc hopened hlt => exact ih (hpending.keep fun ho => absurd ho hopened)
    | element hs hn hsp hb h0 hle =>
      simp only [List.append_assoc, List.cons_append, List.nil_append]
      refine .textToken (fun hn => hpending (List.length_eq_zero_iff.1 hn)) ?_
      have hopen := Braceless.openArgument (ih (Scanner.pendingBraceless_openArgument _ _))
      exact .cons Token.Kind.noConfusion hopen
    | close hs hc hopened hle hclosed hb =>
      rw [List.append_assoc]
      refine .textToken (fun hn => absurd (List.length_eq_zero_iff.1 hn) hopened) ?_
      exact .closed (Closed.of_closeArguments hclosed) (ih fun _ => List.not_mem_nil)
    | chain hs hc hopened hle hclosed hb h0 hle' =>
      simp only [List.append_assoc, List.cons_append, List.nil_append]
      refine .textToken (fun hn => absurd (List.length_eq_zero_iff.1 hn) hopened) ?_
      have hopen := Braceless.openArgument (ih (Scanner.pendingBraceless_openArgument _ _))
      exact .closed (Closed.of_closeArguments hclosed) hopen

/-- The texts that stand directly among some nodes, outside of all arguments. -/
theorem ParseNode.braceless_toNodes {nodes : List ParseNode} {room : Nat}
    (hwf : ParseNode.NodesWellFormed nodes room)
    (h : Braceless 0 (ParseNode.flattenNodes nodes)) :
    ∀ s, .text s ∈ ParseNode.toNodes nodes → '}' ∉ s.toList := by
  induction nodes with
  | nil => simp [ParseNode.toNodes]
  | cons node rest ih =>
    obtain ⟨hnode, hrest⟩ := hwf
    rw [ParseNode.flattenNodes, Braceless.append, ParseNode.openBehind_flatten node hnode] at h
    intro s hs
    rcases List.mem_cons.1 hs with hs | hs
    · cases node with
      | text token text =>
        cases hs
        rw [hnode.2]
        exact h.1.1 rfl hnode.1
      | element => cases hs
    · exact ih hrest h.2 s hs

/-! ## Documents -/

/-- A document that was read is nested at most `maxNesting` deep. -/
theorem Block.nesting_of_ofSource {source : String} {b : Block}
    (h : Block.ofSource source = .ok b) : b.nesting ≤ maxNesting := by
  obtain ⟨tokens, ⟨first, children, last⟩, -, htree, rfl⟩ := Block.ofSource_eq_ok_iff.1 h
  obtain ⟨-, -, hnodes, -⟩ := ParseBlock.isTreeOf_of_ofTokens htree
  exact ParseNode.nesting_toNodes children hnodes

/-- **The shape of every document that was read.**  At every level no text is empty and no two
    texts touch, every element has an argument and a name of proper characters, and no text right
    behind an element begins with a closing brace.  Elements are nested at most `maxNesting` deep,
    and no text outside of all elements holds a closing brace. -/
theorem Block.shape_of_ofSource {source : String} {b : Block} (h : Block.ofSource source = .ok b) :
    (∀ level ∈ b :: b.allArguments, level.LevelShape) ∧ b.nesting ≤ maxNesting ∧
      ∀ s, .text s ∈ b → '}' ∉ s.toList := by
  refine ⟨(Block.writable_of_ofSource h).levels, ?_⟩
  obtain ⟨tokens, ⟨first, children, last⟩, htokens, htree, rfl⟩ := Block.ofSource_eq_ok_iff.1 h
  obtain ⟨⟨later, rfl⟩, -, hnodes, -⟩ := ParseBlock.isTreeOf_of_ofTokens htree
  refine ⟨ParseNode.nesting_toNodes children hnodes, ?_⟩
  have hbraceless := Scanner.braceless_run htokens fun _ => List.not_mem_nil
  simp only [ParseBlock.flatten, List.append_assoc] at hbraceless
  exact ParseNode.braceless_toNodes hnodes (Braceless.append.1 hbraceless).1

/-- Closing braces in a text of an argument, and behind an element in it. -/
theorem Block.shape_of_ofSource_braces :
    let b : Block := [.text "a ",
      .element "b" [[.text "\x7d ", .element "c" [[]], .text " \x7d"]], .text "\n"]
    Block.ofSource "a #b\x7b\x7b \x7d #c\x7b\x7b\x7d\x7d \x7d \x7d\x7d\n" = .ok b ∧
      (∀ level ∈ b :: b.allArguments, level.LevelShape) ∧ b.nesting ≤ maxNesting ∧
        ∀ s, .text s ∈ b → '}' ∉ s.toList := by
  intro b
  have hb : Block.ofSource "a #b\x7b\x7b \x7d #c\x7b\x7b\x7d\x7d \x7d \x7d\x7d\n" = .ok b := by
    decide +kernel
  exact ⟨hb, Block.shape_of_ofSource hb⟩

end BraceMarkup
