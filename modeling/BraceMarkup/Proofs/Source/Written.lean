/-
  Every tree can be written down.

  A block is written node by node: a text as it is, and an element as a `#`,
  its name and its arguments back to back, each as a run of opening braces, a
  space, the nodes of the argument, a space and as many closing braces.  The
  length of the runs is chosen for every argument: it must be at least that of
  the argument around it, and longer than all runs of braces in the texts that
  stand directly in the argument.

  * `Block.Written`: the ways to write a block;
  * `Block.Writable`: blocks whose nodes stay apart when they are written;
  * `Block.exists_written`: every block can be written in some way;
  * `Scanner.ReadsNodes`, `Scanner.ReadsArguments`: a scanner completes the
    tokens of some nodes, and of some arguments;
  * `Block.Written.reads`: a scanner reads a written block, whatever runs were
    chosen;
  * `Block.ofSource_written`: **the tree of a written block is the block**.
-/
import BraceMarkup.Proofs.Token.Reading
import BraceMarkup.Proofs.ParseTree.Grammar
import BraceMarkup.Source

namespace BraceMarkup

/-! ## Written blocks -/

/-- No text directly in a block has `n` braces of a kind in a row. -/
def Block.TextsWithout (n : Nat) (b : Block) : Prop :=
  ∀ s, .text s ∈ b → NoRun n '{' s.toList ∧ NoRun n '}' s.toList

mutual

/-- The ways to write the nodes of a block inside of an argument that is opened by `depth`
    braces. -/
inductive Block.Written : (depth : Nat) → Block → List Char → Prop
  | nil {depth : Nat} : Block.Written depth [] []
  | text {depth : Nat} {s : String} {rest : Block} {cs : List Char} :
      Block.Written depth rest cs → Block.Written depth (.text s :: rest) (s.toList ++ cs)
  | element {depth : Nat} {name : String} {arguments : List Block} {rest : Block}
      {cs ds : List Char} : Node.WrittenArguments depth arguments cs →
      Block.Written depth rest ds →
      Block.Written depth (.element name arguments :: rest) ('#' :: name.toList ++ cs ++ ds)

/-- The ways to write arguments, back to back, inside of an argument that is opened by `depth`
    braces.  Each is opened and closed by some `braces`, which no text directly in it has in a
    row. -/
inductive Node.WrittenArguments : (depth : Nat) → List Block → List Char → Prop
  | nil {depth : Nat} : Node.WrittenArguments depth [] []
  | cons {depth braces : Nat} {block : Block} {rest : List Block} {cs ds : List Char} :
      1 ≤ braces → depth ≤ braces → Block.TextsWithout braces block →
      Block.Written braces block cs → Node.WrittenArguments depth rest ds →
      Node.WrittenArguments depth (block :: rest) (List.replicate braces '{' ++ ' ' :: cs ++
        ' ' :: List.replicate braces '}' ++ ds)

end

/-- What may stand right behind a node: no text behind a text, and behind an element no text that
    begins with a closing brace. -/
def Node.MayPrecede : Node → Node → Prop
  | .text _, .text _ => False
  | .element _ _, .text s => s.toList.head? ≠ some '}'
  | _, .element _ _ => True

mutual

/-- A text that is not empty, or an element with a proper name and at least one argument. -/
def Node.Writable : Node → Prop
  | .text s => s ≠ ""
  | .element name arguments => (∀ c ∈ name.toList, isNameChar c = true) ∧ arguments ≠ [] ∧
    Node.WritableArguments arguments

/-- Nodes that stay apart when they are written one behind the other. -/
def Block.Writable : Block → Prop
  | [] => True
  | node :: rest => node.Writable ∧ (∀ next ∈ rest.head?, node.MayPrecede next) ∧
    Block.Writable rest

/-- Arguments whose nodes stay apart. -/
def Node.WritableArguments : List Block → Prop
  | [] => True
  | block :: rest => Block.Writable block ∧ Node.WritableArguments rest

end

mutual

/-- How deeply elements are nested in a node, the node included. -/
def Node.nesting : Node → Nat
  | .text _ => 0
  | .element _ arguments => 1 + Node.nestingArguments arguments

/-- How deeply elements are nested in a block. -/
def Block.nesting : Block → Nat
  | [] => 0
  | node :: rest => max node.nesting (Block.nesting rest)

/-- How deeply elements are nested in some arguments. -/
def Node.nestingArguments : List Block → Nat
  | [] => 0
  | block :: rest => max (Block.nesting block) (Node.nestingArguments rest)

end

/-! ## Nodes and arguments -/

/-- The text node of what the scanner has pending; none if nothing is pending. -/
def Scanner.pendingNodes (s : Scanner) : List ParseNode :=
  (textToken s.pendingPosition s.pending).map .ofText

theorem Scanner.flattenNodes_pendingNodes (s : Scanner) :
    ParseNode.flattenNodes s.pendingNodes = textToken s.pendingPosition s.pending := by
  unfold Scanner.pendingNodes textToken
  split <;> rfl

theorem Scanner.pendingNodes_of_nil {s : Scanner} (h : s.pending = []) : s.pendingNodes = [] := by
  simp [Scanner.pendingNodes, textToken, h]

theorem Scanner.toNodes_pendingNodes {s : Scanner} {text : String} (hne : text ≠ "")
    (h : s.pending = text.toList.reverse) : ParseNode.toNodes s.pendingNodes = [.text text] := by
  have hne : text.toList ≠ [] := by simpa using hne
  simp [Scanner.pendingNodes, textToken, h, hne, ParseNode.toNodes, ParseNode.toNode]

theorem Scanner.wellFormed_pendingNodes (s : Scanner) (room : Nat) :
    ParseNode.NodesWellFormed s.pendingNodes room := by
  unfold Scanner.pendingNodes textToken
  split
  · trivial
  · exact ⟨⟨rfl, rfl⟩, trivial⟩

/-- Having read some nodes up to what stands behind them, the scanner has completed the tokens of
    `nodes`.  Together with what it has pending before and behind, they are the nodes `b`. -/
structure Scanner.ReadsNodes (s : Scanner) (b : Block) (tail : List Char) (room : Nat)
    (nodes : List ParseNode) (next : Scanner) : Prop where
  reads : s.Reads (ParseNode.flattenNodes nodes) next
  rest : next.rest = tail
  opened : next.opened = s.opened
  wellFormed : ParseNode.NodesWellFormed nodes room
  toNodes : ParseNode.toNodes (nodes ++ next.pendingNodes) = ParseNode.toNodes s.pendingNodes ++ b

/-- Having read the first opening run and then some arguments, the scanner has completed the tokens
    of `arguments` behind that run. -/
structure Scanner.ReadsArguments (s : Scanner) (blocks : List Block) (tail : List Char)
    (room : Nat) (arguments : List ParseBlock) (next : Scanner) : Prop where
  reads : ∃ later, ParseNode.flattenArguments arguments = s.opening.1 :: later ∧
    s.opening.2.Reads later next
  rest : next.rest = tail
  opened : next.opened = s.opened
  pending : next.pending = []
  wellFormed : ParseNode.ArgumentsWellFormed arguments room
  toArguments : ParseNode.toArguments arguments = blocks

section
variable {s last outside next : Scanner} {tail tail' cs : List Char} {room : Nat}
  {nodes : List ParseNode} {arguments : List ParseBlock} {token : Token}
  {outer : List OpenArgument} {block rest : Block} {blocks : List Block} {name : String}

theorem Scanner.ReadsNodes.nil (hs : s.rest = tail) : s.ReadsNodes [] tail room [] s :=
  ⟨Scanner.Reads.refl s, hs, rfl, trivial, (List.append_nil _).symm⟩

/-- A text, and the nodes behind it. -/
theorem Scanner.ReadsNodes.text {text : String} (hs : s.rest = text.toList ++ cs)
    (hpending : s.pending = []) (hne : text ≠ "")
    (hreads : s.Reads [] (s.keep text.toList.length))
    (h : (s.keep text.toList.length).ReadsNodes rest tail room nodes next) :
    s.ReadsNodes (.text text :: rest) tail room nodes next where
  reads := hreads.trans h.reads
  rest := h.rest
  opened := h.opened
  wellFormed := h.wellFormed
  toNodes := by
    have hkept : (s.keep text.toList.length).pending = text.toList.reverse := by
      simp [Scanner.keep, hs, hpending]
    rw [h.toNodes, Scanner.toNodes_pendingNodes hne hkept, Scanner.pendingNodes_of_nil hpending]
    rfl

/-- An element, and the nodes behind it. -/
theorem Scanner.ReadsNodes.element (hk : token.kind = .elementName)
    (hname : token.Names name) (hroom : 0 < room)
    (hreads : s.Reads (textToken s.pendingPosition s.pending ++ [token, outside.opening.1])
      outside.opening.2)
    (hopened : outside.opened = s.opened)
    (ha : outside.ReadsArguments blocks cs (room - 1) arguments last)
    (h : last.ReadsNodes rest tail room nodes next) :
    s.ReadsNodes (.element name blocks :: rest) tail room
      (s.pendingNodes ++ .element token name arguments :: nodes) next where
  reads := by
    obtain ⟨later, hlater, hinside⟩ := ha.reads
    have hall := (hreads.trans hinside).trans h.reads
    rw [← Scanner.flattenNodes_pendingNodes] at hall
    simpa [ParseNode.flattenNodes, ParseNode.flatten, hlater] using hall
  rest := h.rest
  opened := h.opened.trans (ha.opened.trans hopened)
  wellFormed := ParseNode.nodesWellFormed_append.2
    ⟨s.wellFormed_pendingNodes room, ⟨hk, hname, hroom, ha.wellFormed⟩, h.wellFormed⟩
  toNodes := by
    have hbehind := h.toNodes
    rw [Scanner.pendingNodes_of_nil ha.pending] at hbehind
    rw [List.append_assoc, List.cons_append, ParseNode.toNodes_append, ParseNode.toNodes, hbehind,
      ParseNode.toNode, ha.toArguments]
    rfl

/-- The argument whose nodes were read inside of an opening run, up to its closing run. -/
def Scanner.argument (s : Scanner) (nodes : List ParseNode) (last : Scanner) (token : Token) :
    ParseBlock :=
  ⟨s.opening.1, nodes ++ last.pendingNodes, token⟩

theorem Scanner.ReadsNodes.argument_wellFormed
    (h : s.opening.2.ReadsNodes block tail room nodes last)
    (hc : last.ClosesTo (runLength '{' s.rest) cs outer token outside) :
    ParseBlock.ArgumentWellFormed (s.argument nodes last token) room := by
  have hnodes := ParseNode.nodesWellFormed_append.2
    ⟨h.wellFormed, last.wellFormed_pendingNodes room⟩
  refine ⟨rfl, hnodes, hc.kind, ?_⟩
  rw [hc.text, Scanner.opening_fst, utf8ByteSize_replicate rfl, utf8ByteSize_replicate rfl]

theorem Scanner.ReadsNodes.argument_toBlock
    (h : s.opening.2.ReadsNodes block tail room nodes last) :
    ParseBlock.toBlock (s.argument nodes last token) = block := by
  rw [Scanner.argument, ParseBlock.toBlock, h.toNodes,
    Scanner.pendingNodes_of_nil s.opening_pending]
  rfl

/-- The last argument of an element. -/
theorem Scanner.ReadsArguments.single (h : s.opening.2.ReadsNodes block tail room nodes last)
    (hc : last.ClosesTo (runLength '{' s.rest) cs s.opened token outside)
    (hrun : runLength '{' cs < outside.depth) :
    s.ReadsArguments [block] cs room [s.argument nodes last token] outside where
  reads := by
    refine ⟨_, rfl, ?_⟩
    have hall := h.reads.trans (hc.ends hrun)
    rw [← Scanner.flattenNodes_pendingNodes] at hall
    simpa [ParseNode.flattenArguments] using hall
  rest := hc.rest
  opened := hc.opened
  pending := hc.pending
  wellFormed := ⟨h.argument_wellFormed hc, trivial⟩
  toArguments := by rw [ParseNode.toArguments, h.argument_toBlock]; rfl

/-- An argument, and the arguments behind it. -/
theorem Scanner.ReadsArguments.cons (h : s.opening.2.ReadsNodes block tail room nodes last)
    (hc : last.ClosesTo (runLength '{' s.rest) cs s.opened token outside)
    (h0 : 0 < runLength '{' cs) (hle : outside.depth ≤ runLength '{' cs)
    (ha : outside.ReadsArguments blocks tail' room arguments next) :
    s.ReadsArguments (block :: blocks) tail' room (s.argument nodes last token :: arguments)
      next where
  reads := by
    obtain ⟨later, hlater, hinside⟩ := ha.reads
    refine ⟨_, rfl, ?_⟩
    have hall := (h.reads.trans (hc.chains h0 hle)).trans hinside
    rw [← Scanner.flattenNodes_pendingNodes] at hall
    simpa [hlater] using hall
  rest := ha.rest
  opened := ha.opened.trans hc.opened
  pending := ha.pending
  wellFormed := ⟨h.argument_wellFormed hc, ha.wellFormed⟩
  toArguments := by rw [ParseNode.toArguments, h.argument_toBlock, ha.toArguments]

end

/-! ## Written blocks are read -/

/-- What stands in front of a further argument: at least as many braces as the argument around
    asks for. -/
theorem Node.WrittenArguments.front {depth : Nat} {arguments : List Block} {cs : List Char}
    (h : Node.WrittenArguments depth arguments cs) (hne : arguments ≠ []) (tail : List Char) :
    0 < runLength '{' (cs ++ tail) ∧ depth ≤ runLength '{' (cs ++ tail) ∧
      ∃ ds, cs = '{' :: ds := by
  cases h with
  | nil => exact absurd rfl hne
  | @cons _ braces _ _ bs ds h1 hle =>
    simp only [List.append_assoc, List.cons_append, runLength_replicate _ _ (by decide : ' ' ≠ '{')]
    exact ⟨h1, hle, _, replicate_append_eq_cons h1⟩

/-- A block that does not begin with a text is bounded by its elements, or by what stands behind
    it. -/
theorem Block.Written.bounds {depth : Nat} {b : Block} {cs tail : List Char}
    (h : Block.Written depth b cs) (ht : Bounds tail) (hb : ∀ s, b.head? ≠ some (.text s)) :
    Bounds (cs ++ tail) := by
  cases h with
  | nil => exact ht
  | text => exact absurd rfl (hb _)
  | element => exact .inr (.inl ⟨_, rfl⟩)

theorem Node.MayPrecede.ne_text {s : String} {rest : Block}
    (h : ∀ next ∈ rest.head?, (Node.text s).MayPrecede next) (t : String) :
    rest.head? ≠ some (.text t) := fun ht => h _ ht

/-- Behind an element stands no closing brace, and no run of opening braces that would begin a
    further argument. -/
theorem Block.Written.behind_element {depth : Nat} {name : String} {arguments : List Block}
    {b : Block} {cs tail : List Char} (h : Block.Written depth b cs) (hpos : 0 < depth)
    (ht : Bounds tail) (hw : Block.Writable b) (htexts : Block.TextsWithout depth b)
    (hb : ∀ next ∈ b.head?, (Node.element name arguments).MayPrecede next) :
    (cs ++ tail).head? ≠ some '}' ∧ runLength '{' (cs ++ tail) < depth := by
  have hbounds : ∀ {cs}, Bounds cs → cs.head? ≠ some '}' ∧ runLength '{' cs < depth := by
    intro cs hc
    rw [runLength_eq_zero (hc.head?_ne (by decide) (by decide))]
    exact ⟨hc.head?_ne (by decide) (by decide), hpos⟩
  cases h with
  | nil => exact hbounds ht
  | element => exact hbounds (.inr (.inl ⟨_, rfl⟩))
  | @text _ s rest cs hrest =>
    obtain ⟨hne, hfirst, -⟩ := hw
    have hne : s.toList ≠ [] := by simpa [Node.Writable] using hne
    have hbehind := hrest.bounds ht (Node.MayPrecede.ne_text hfirst)
    rw [List.append_assoc, runLength_append (hbehind.head?_ne (by decide) (by decide))]
    refine ⟨?_, (htexts s (by simp)).1.runLength_lt (List.suffix_refl _)⟩
    obtain ⟨c, cs', hc⟩ := List.exists_cons_of_ne_nil hne
    have hfirst := hb (.text s) rfl
    simpa [Node.MayPrecede, hc] using hfirst

mutual

/-- **A scanner reads a written block**, whatever runs were chosen. -/
theorem Block.Written.reads {depth : Nat} {b : Block} {cs : List Char} :
    Block.Written depth b cs → ∀ {s : Scanner} {tail : List Char} {room : Nat},
      s.rest = cs ++ tail → s.depth = depth → s.Braced → Bounds tail → Block.Writable b →
      Block.TextsWithout depth b → (s.pending ≠ [] → ∀ t, b.head? ≠ some (.text t)) →
      Block.nesting b ≤ room → ∃ nodes next, s.ReadsNodes b tail room nodes next
  | .nil, s, tail, room, hs, _, _, _, _, _, _, _ => ⟨[], s, .nil hs⟩
  | @Block.Written.text _ text rest cs hrest, s, tail, room, hs, hdepth, hbraced, ht,
      ⟨hne, hfirst, hw⟩, htexts, hpending, hroom => by
    rw [List.append_assoc] at hs
    have hnil : s.pending = [] := by
      refine Classical.byContradiction fun h => ?_
      exact hpending h text rfl
    obtain ⟨hopen, hclose⟩ := htexts text (by simp)
    have hbehind := hrest.bounds ht (Node.MayPrecede.ne_text hfirst)
    have hreads : s.Reads [] (s.keep text.toList.length) :=
      Scanner.reads_text hs hbraced.depth_pos (hdepth ▸ hopen) (hdepth ▸ hclose) hbehind
    have hnest : Block.nesting rest ≤ room := Nat.le_trans (Nat.le_max_right _ _) hroom
    obtain ⟨nodes, next, h⟩ := hrest.reads (s := s.keep text.toList.length) (by simp [hs]) hdepth
      hbraced ht hw (fun t h => htexts t (by simp [h])) (fun _ => Node.MayPrecede.ne_text hfirst)
      hnest
    exact ⟨nodes, next, .text hs hnil hne hreads h⟩
  | @Block.Written.element _ name blocks rest cs ds hargs hrest, s, tail, room, hs, hdepth,
      hbraced, ht, ⟨⟨hname, hne, hwargs⟩, hfirst, hw⟩, htexts, _, hroom => by
    simp only [List.cons_append, List.append_assoc] at hs
    have hrestTexts : Block.TextsWithout depth rest := fun t h => htexts t (by simp [h])
    obtain ⟨hbrace, hrun⟩ :=
      hrest.behind_element (hdepth ▸ hbraced.depth_pos) ht hw hrestTexts hfirst
    obtain ⟨h0, hle, ds', hds'⟩ := hargs.front hne (ds ++ tail)
    obtain ⟨outside, hrest', hpending, hopened, hreads⟩ :=
      Scanner.reads_element hs hname ⟨_, by rw [hds', List.cons_append]⟩ (hdepth ▸ hle)
    have hnestElement : 1 + Node.nestingArguments blocks ≤ room :=
      Nat.le_trans (Nat.le_max_left _ _) hroom
    have hnestArgs : Node.nestingArguments blocks ≤ room - 1 := by omega
    obtain ⟨arguments, last, ha⟩ := hargs.reads hrest' (hdepth ▸ Scanner.depth_congr hopened)
      (hbraced.congr hopened) hbrace hrun hne hwargs hnestArgs
    have hsame : last.opened = s.opened := ha.opened.trans hopened
    have hnest : Block.nesting rest ≤ room := Nat.le_trans (Nat.le_max_right _ _) hroom
    obtain ⟨nodes, next, h⟩ := hrest.reads ha.rest (hdepth ▸ Scanner.depth_congr hsame)
      (hbraced.congr hsame) ht hw hrestTexts (fun h => absurd ha.pending h) hnest
    have hname : Token.Names ⟨.elementName, String.ofList ('#' :: name.toList), s.position⟩ name :=
      Token.names_iff.2 (by simp [elementName])
    exact ⟨_, next, .element rfl hname (by omega) hreads hopened ha h⟩

/-- A scanner reads written arguments, whatever runs were chosen. -/
theorem Node.WrittenArguments.reads {depth : Nat} {blocks : List Block} {cs : List Char} :
    Node.WrittenArguments depth blocks cs → ∀ {s : Scanner} {tail : List Char} {room : Nat},
      s.rest = cs ++ tail → s.depth = depth → s.Braced → tail.head? ≠ some '}' →
      runLength '{' tail < depth → blocks ≠ [] → Node.WritableArguments blocks →
      Node.nestingArguments blocks ≤ room →
      ∃ arguments next, s.ReadsArguments blocks tail room arguments next
  | .nil, _, _, _, _, _, _, _, _, hne, _, _ => absurd rfl hne
  | @Node.WrittenArguments.cons _ braces block rest cs ds h1 hle htexts hblock hrest, s, tail, room,
      hs, hdepth, hbraced, htail, hrun, _, ⟨hwblock, hwrest⟩, hroom => by
    simp only [List.append_assoc, List.cons_append] at hs
    have hinside := Scanner.opening_rest hs
    obtain rfl : runLength '{' s.rest = braces := by
      rw [hs, runLength_replicate _ _ (by decide)]
    -- the content of the argument, up to the space in front of its closing run
    have hinner := hbraced.opening h1
    have hbounds : Bounds (' ' :: (List.replicate (runLength '{' s.rest) '}' ++ (ds ++ tail))) :=
      .inr (.inr ⟨_, by rw [replicate_append_eq_cons h1]⟩)
    have hnestBlock : Block.nesting block ≤ room := Nat.le_trans (Nat.le_max_left _ _) hroom
    obtain ⟨nodes, last, hn⟩ := hblock.reads hinside
      (by rw [Scanner.depth, Scanner.opening_opened]) hinner hbounds hwblock htexts
      (fun h => absurd s.opening_pending h) hnestBlock
    have hlast := hn.opened.trans s.opening_opened
    -- its closing run
    have hbrace : (ds ++ tail).head? ≠ some '}' := by
      cases rest with
      | nil => cases hrest; exact htail
      | cons => obtain ⟨-, -, ds', hds'⟩ := hrest.front (by simp) tail; simp [hds']
    obtain ⟨token, outside, hc⟩ :=
      Scanner.reads_close hn.rest hlast (hinner.congr hn.opened) hbrace
    have houter : outside.depth = depth := hdepth ▸ Scanner.depth_congr hc.opened
    cases rest with
    | nil =>
      cases hrest
      exact ⟨_, outside, .single hn hc (houter ▸ hrun)⟩
    | cons block' rest =>
      obtain ⟨h0, hle', -⟩ := hrest.front (by simp) tail
      have hnest : Node.nestingArguments (block' :: rest) ≤ room :=
        Nat.le_trans (Nat.le_max_right _ _) hroom
      obtain ⟨arguments, next, ha⟩ := hrest.reads hc.rest houter (hbraced.congr hc.opened) htail
        hrun (by simp) hwrest hnest
      exact ⟨_, next, .cons hn hc h0 (houter ▸ hle') ha⟩

end

/-! ## Whole texts -/

/-- Runs that are long enough for the texts of a block can be chosen. -/
theorem Block.exists_textsWithout (b : Block) : ∃ m, ∀ n, m ≤ n → Block.TextsWithout n b := by
  induction b with
  | nil => exact ⟨0, fun n _ s hs => absurd hs (by simp)⟩
  | cons node rest ih =>
    obtain ⟨m, hm⟩ := ih
    cases node with
    | text t =>
      refine ⟨max m (t.toList.length + 1), fun n hn s hs => ?_⟩
      rcases List.mem_cons.1 hs with hs | hs
      · cases hs
        exact ⟨noRun_of_length_lt (by omega), noRun_of_length_lt (by omega)⟩
      · exact hm n (by omega) s hs
    | element name arguments =>
      refine ⟨m, fun n hn s hs => hm n hn s ?_⟩
      simpa using hs

mutual

/-- Every block can be written. -/
theorem Block.exists_written : ∀ (b : Block) (depth : Nat), ∃ cs, Block.Written depth b cs
  | [], _ => ⟨_, .nil⟩
  | .text _ :: rest, depth =>
    let ⟨_, h⟩ := Block.exists_written rest depth
    ⟨_, .text h⟩
  | .element _ arguments :: rest, depth =>
    let ⟨_, hargs⟩ := Node.exists_writtenArguments arguments depth
    let ⟨_, h⟩ := Block.exists_written rest depth
    ⟨_, .element hargs h⟩

/-- All arguments can be written. -/
theorem Node.exists_writtenArguments : ∀ (blocks : List Block) (depth : Nat),
    ∃ cs, Node.WrittenArguments depth blocks cs
  | [], _ => ⟨_, .nil⟩
  | block :: rest, depth =>
    let ⟨m, hm⟩ := Block.exists_textsWithout block
    let ⟨_, hblock⟩ := Block.exists_written block (depth + m + 1)
    let ⟨_, h⟩ := Node.exists_writtenArguments rest depth
    ⟨_, .cons (Nat.le_add_left 1 _) (by omega) (hm _ (by omega)) hblock h⟩

end

theorem sourceChars_eq_toList {source : String} (h : source.toList.head? ≠ some '\uFEFF') :
    sourceChars source = source.toList := by
  unfold sourceChars
  split
  · next hs => simp [hs] at h
  · rfl

/-- A scanner that has read some nodes up to the end of the text has completed the tokens of a
    whole document. -/
theorem Scanner.ReadsNodes.run {s next : Scanner} {b : Block} {room : Nat} {nodes : List ParseNode}
    (h : s.ReadsNodes b [] room nodes next) (ho : s.opened = []) :
    ∃ last : Token, last.kind = .endOfInput ∧
      s.run = .ok (ParseNode.flattenNodes (nodes ++ next.pendingNodes) ++ [last]) := by
  refine ⟨⟨.endOfInput, "", next.position⟩, rfl, ?_⟩
  have hreads := h.reads
  unfold Scanner.Reads at hreads
  rw [hreads, Scanner.run_of_nil h.rest, ParseNode.flattenNodes_append,
    Scanner.flattenNodes_pendingNodes]
  simp [Scanner.finish, h.opened, ho, Except.map]

/-- **Every tree can be written down, and is read back unchanged**, provided that its nodes stay
    apart, that elements are not nested too deep and that no brace stands in a text outside of all
    elements.  The runs are free: each must be at least as long as those around it, and longer than
    the runs in the texts that stand directly inside. -/
theorem Block.ofSource_written (b : Block) (hw : Block.Writable b)
    (hnesting : Block.nesting b ≤ maxNesting)
    (htop : ∀ s, .text s ∈ b → '{' ∉ s.toList ∧ '}' ∉ s.toList) :
    (∃ source : String, Block.Written 1 b source.toList) ∧
      ∀ source : String, Block.Written 1 b source.toList →
        source.toList.head? ≠ some '\uFEFF' → Block.ofSource source = .ok b := by
  refine ⟨?_, fun source hwritten hmark => ?_⟩
  · obtain ⟨cs, h⟩ := Block.exists_written b 1
    exact ⟨String.ofList cs, by rwa [String.toList_ofList]⟩
  · have htexts : Block.TextsWithout 1 b := fun s hs =>
      ⟨noRun_one (htop s hs).1, noRun_one (htop s hs).2⟩
    obtain ⟨nodes, next, h⟩ := hwritten.reads (s := .ofList source.toList)
      (List.append_nil _).symm rfl (fun a ha => absurd ha (by simp [Scanner.ofList]))
      (.inl rfl) hw htexts (fun hne => absurd rfl hne) hnesting
    obtain ⟨last, hlast, hrun⟩ := h.run rfl
    obtain ⟨first, rest, hfirst⟩ := List.exists_cons_of_ne_nil
      (List.append_ne_nil_of_right_ne_nil (ParseNode.flattenNodes (nodes ++ next.pendingNodes))
        (List.cons_ne_nil last []))
    have hwf : ParseNode.NodesWellFormed (nodes ++ next.pendingNodes) maxNesting :=
      ParseNode.nodesWellFormed_append.2 ⟨h.wellFormed, next.wellFormed_pendingNodes _⟩
    have htree := @ParseBlock.ofTokens_flatten ⟨first, nodes ++ next.pendingNodes, last⟩
      hwf hlast (by rw [ParseBlock.flatten, hfirst]; rfl) []
    rw [List.append_nil] at htree
    refine Block.ofSource_eq_ok_iff.2 ⟨_, _, ?_, htree, h.toNodes⟩
    rw [tokenize, sourceChars_eq_toList hmark, hrun]
    rfl

/-- An argument with short runs and a name that begins no element, behind it an empty argument. -/
theorem Block.ofSource_written_short_runs :
    Block.ofSource "#a{{ x #b{c} }}{  } d" =
      .ok [.element "a" [[.text "x #b{c}"], []], .text " d"] := by
  have htext : Block.TextsWithout 2 [.text "x #b{c}"] := by
    intro s hs
    cases List.mem_singleton.1 hs
    decide +kernel
  have hempty := @Node.WrittenArguments.cons 1 1 [] [] [] [] (by decide) (by decide)
    (by simp [Block.TextsWithout]) .nil .nil
  have harguments := @Node.WrittenArguments.cons 1 2 [.text "x #b{c}"] _ _ _ (by decide)
    (by decide) htext (.text .nil) hempty
  have hwritten := @Block.Written.element 1 "a" _ [.text " d"] _ _ harguments (.text .nil)
  refine (Block.ofSource_written _ ?_ ?_ ?_).2 _ hwritten (by decide)
  · simp [Block.Writable, Node.Writable, Node.WritableArguments, Node.MayPrecede]
    decide
  · simp [Block.nesting, Node.nesting, Node.nestingArguments, maxNesting]
  · simp

end BraceMarkup
