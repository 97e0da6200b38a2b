/-
  The shape of a document that was read.

  What a scanner completes has a shape that the tree keeps: no text is empty,
  no two texts touch, the first argument stands right behind the name of its
  element, and no text right behind a closing run begins with a closing brace.
  So everything that is read is among the blocks that can be written.

  * `Token.Proper`, `Token.MayPrecede`: what a token spells, and what may stand
    right behind it;
  * `Scanner.Shaped`: tokens of this shape that continue what is pending;
  * `Scanner.shaped_run`: the tokens that a scanner completes have this shape;
  * `ParseNode.writable_toNodes`: what the tokens' shape makes of the nodes of
    a tree;
  * `Block.writable_of_ofSource`: **every block that is read can be written**.
-/
import BraceMarkup.Proofs.ParseTree.Acceptance
import BraceMarkup.Proofs.Source.Written
import Mathlib.Data.List.Chain

namespace BraceMarkup

/-! ## The shape of tokens -/

/-- A text that is not empty, a name made of a `#` and proper characters, or any other token. -/
def Token.Proper (token : Token) : Prop :=
  match token.kind with
  | .text => token.text ≠ ""
  | .elementName => ∃ name, token.text.toList = '#' :: name ∧ ∀ c ∈ name, isNameChar c = true
  | _ => True

/-- What may stand right behind a token: no text behind a text, nothing but an opening run behind a
    name, and behind a closing run no text that begins with a closing brace. -/
def Token.MayPrecede (token next : Token) : Prop :=
  match token.kind with
  | .text => next.kind ≠ .text
  | .elementName => next.kind = .argumentOpen
  | .argumentClose => next.kind = .text → next.text.toList.head? ≠ some '}'
  | _ => True

/-- Tokens of this shape that a scanner can go on with: if they begin with a text, it begins with
    what is pending, or else with what has not been read. -/
structure Scanner.Shaped (s : Scanner) (tokens : List Token) : Prop where
  proper : ∀ token ∈ tokens, token.Proper
  chain : tokens.IsChain Token.MayPrecede
  first : ∀ token ∈ tokens.head?, token.kind = .text →
    token.text.toList.head? = (s.pending.reverse ++ s.rest).head?

/-! ## What a scanner completes -/

/-- The pending text in front of other tokens. -/
theorem Scanner.Shaped.textToken {s : Scanner} {p : Position} {pending : List Char}
    {tokens : List Token} (hpending : pending.reverse <+: s.pending.reverse)
    (hproper : ∀ token ∈ tokens, token.Proper) (hchain : tokens.IsChain Token.MayPrecede)
    (hfirst : ∀ token ∈ tokens.head?, token.kind ≠ .text) :
    s.Shaped (textToken p pending ++ tokens) := by
  unfold BraceMarkup.textToken
  split
  · exact ⟨hproper, hchain, fun token ht hk => absurd hk (hfirst token ht)⟩
  · next hne =>
    have hne : pending.reverse ≠ [] := by simpa using hne
    refine ⟨?_, ?_, ?_⟩
    · intro token ht
      rcases List.mem_cons.1 ht with rfl | ht
      · simpa [Token.Proper] using hne
      · exact hproper token ht
    · exact hchain.cons hfirst
    · intro token ht _
      obtain rfl : _ = token := Option.some.inj ht
      obtain ⟨later, hlater⟩ := hpending
      rw [← hlater, String.toList_ofList, List.append_assoc, List.head?_append_of_ne_nil _ hne]

/-- A step that completes nothing. -/
theorem Scanner.Shaped.keep {s : Scanner} {n : Nat} {tokens : List Token}
    (h : (s.keep n).Shaped tokens) : s.Shaped tokens := by
  refine ⟨h.proper, h.chain, ?_⟩
  intro token ht hk
  have hfirst := h.first token ht hk
  rwa [Scanner.keep, List.reverse_append, List.reverse_reverse, List.append_assoc,
    List.take_append_drop] at hfirst

/-- Runs that close arguments, in front of other tokens. -/
theorem Closed.chain {p : Position} {count : Nat} {opened left : List OpenArgument}
    {closed : List Token} (h : Closed p count opened closed left) {tokens : List Token}
    (htokens : tokens.IsChain Token.MayPrecede)
    (hfirst : ∀ token ∈ tokens.head?, token.kind = .text → token.text.toList.head? ≠ some '}') :
    (closed ++ tokens).IsChain Token.MayPrecede := by
  induction h with
  | done => exact htokens
  | @next p count a outer closed left hclosed ih =>
    refine ih.cons ?_
    intro token ht hk
    cases closed with
    | nil => exact hfirst token ht hk
    | cons first closed =>
      obtain rfl : first = token := Option.some.inj ht
      exact absurd hk (by simp [hclosed.kind (List.mem_cons_self ..)])

/-- The first token of a run that closes arguments closes one. -/
theorem Closed.kind_head? {p : Position} {count : Nat} {opened left : List OpenArgument}
    {closed : List Token} (h : Closed p count opened closed left) (hcount : 0 < count)
    {tokens : List Token} {token : Token} (ht : token ∈ (closed ++ tokens).head?) :
    token.kind = .argumentClose := by
  cases h with
  | done => exact absurd hcount (Nat.lt_irrefl 0)
  | next =>
    obtain rfl := Option.some.inj ht
    rfl

/-- What stands behind a whole run does not begin with a character of the run. -/
theorem head?_drop_runLength (c : Char) (cs : List Char) :
    (cs.drop (runLength c cs)).head? ≠ some c := by
  rw [runLength, drop_length_takeWhile]
  intro h
  have hnot := List.head?_dropWhile_not (· == c) cs
  rw [h] at hnot
  simp at hnot

theorem prefix_reverse_dropSpace (pending : List Char) :
    (dropSpace pending).reverse <+: pending.reverse := by
  unfold dropSpace
  split
  · rw [List.reverse_cons]
    exact List.prefix_append _ _
  · exact List.prefix_rfl

/-- The pending text and runs that close arguments, in front of other tokens. -/
theorem Scanner.Shaped.closed {s : Scanner} {p : Position} {count : Nat}
    {opened left : List OpenArgument} {closed tokens : List Token}
    (h : Closed p count opened closed left) (hcount : 0 < count)
    (hproper : ∀ token ∈ tokens, token.Proper) (hchain : tokens.IsChain Token.MayPrecede)
    (hfirst : ∀ token ∈ tokens.head?, token.kind = .text → token.text.toList.head? ≠ some '}') :
    s.Shaped (BraceMarkup.textToken s.pendingPosition (dropSpace s.pending) ++
      (closed ++ tokens)) := by
  refine .textToken (prefix_reverse_dropSpace _) ?_ (h.chain hchain hfirst) ?_
  · intro token ht
    rcases List.mem_append.1 ht with ht | ht
    · simp [Token.Proper, h.kind ht]
    · exact hproper token ht
  · intro token ht
    simp [h.kind_head? hcount ht]

/-- The name of an element. -/
theorem proper_elementName {cs : List Char} (p : Position) :
    (⟨.elementName, String.ofList (('#' :: cs).take (nameLength ('#' :: cs))), p⟩ :
      Token).Proper := by
  refine ⟨cs.takeWhile isNameChar, ?_, ?_⟩
  · rw [String.toList_ofList, take_nameLength]
  · intro c hc
    exact List.all_eq_true.1 List.all_takeWhile c hc

/-- Anything may stand at the beginning of an argument. -/
theorem Scanner.openArgument_mayPrecede {s : Scanner} {braces : Nat} {next : Token} :
    (s.openArgument braces).1.MayPrecede next := trivial

/-- **What a scanner completes is shaped.** -/
theorem Scanner.shaped_run {s : Scanner} {tokens : List Token} (h : s.run = .ok tokens) :
    s.Shaped tokens := by
  refine Scanner.run_induction (motive := Scanner.Shaped) ?_ ?_ h
  · intro s _ _
    refine Scanner.Shaped.textToken List.prefix_rfl ?_ (List.isChain_singleton _) ?_
    · intro token ht
      rw [List.mem_singleton.1 ht]
      trivial
    · intro token ht
      obtain rfl := Option.some.inj ht
      simp
  · intro s next tokens later hs ih
    cases hs with
    | char | hash | short => exact ih.keep
    | @element cs name spaces braces hs hn hsp hb h0 hle =>
      simp only [List.append_assoc, List.cons_append, List.nil_append]
      refine Scanner.Shaped.textToken List.prefix_rfl ?_ ?_ ?_
      · intro token ht
        rcases List.mem_cons.1 ht with rfl | ht
        · rw [hn, hs]
          exact proper_elementName s.position
        rcases List.mem_cons.1 ht with rfl | ht
        · trivial
        · exact ih.proper token ht
      · exact .cons_cons rfl (ih.chain.cons fun _ _ => Scanner.openArgument_mayPrecede)
      · intro token ht
        obtain rfl := Option.some.inj ht
        simp
    | @close cs count closed opened hs hc hopened hle hclosed hb =>
      rw [List.append_assoc]
      refine .closed (Closed.of_closeArguments hclosed) (hc ▸ runLength_pos hs) ih.proper
        ih.chain ?_
      intro token ht hk
      rw [ih.first token ht hk, hc]
      exact head?_drop_runLength '}' s.rest
    | @chain cs count closed opened braces hs hc hopened hle hclosed hb h0 hle' =>
      simp only [List.append_assoc, List.cons_append, List.nil_append]
      refine .closed (Closed.of_closeArguments hclosed) (hc ▸ runLength_pos hs) ?_
        (ih.chain.cons fun _ _ => Scanner.openArgument_mayPrecede) ?_
      · intro token ht
        rcases List.mem_cons.1 ht with rfl | ht
        · trivial
        · exact ih.proper token ht
      · intro token ht hk
        obtain rfl := Option.some.inj ht
        cases hk

/-! ## The nodes of a tree -/

/-- Tokens of this shape that stand in front of another one. -/
structure ShapedBefore (next : Token) (tokens : List Token) : Prop where
  proper : ∀ token ∈ tokens, token.Proper
  chain : (tokens ++ [next]).IsChain Token.MayPrecede

theorem ShapedBefore.left {next : Token} {tokens later : List Token}
    (h : ShapedBefore next (tokens ++ later)) :
    ∃ behind ∈ (later ++ [next]).head?, ShapedBefore behind tokens := by
  obtain ⟨behind, hbehind⟩ : ∃ behind, (later ++ [next]).head? = some behind := by
    cases later with
    | nil => exact ⟨next, rfl⟩
    | cons token later => exact ⟨token, rfl⟩
  refine ⟨behind, hbehind, fun token ht => h.proper token (List.mem_append_left _ ht), ?_⟩
  obtain ⟨rest, hrest⟩ := List.head?_eq_some_iff.1 hbehind
  have hchain := h.chain
  rw [List.append_assoc, hrest, List.append_cons] at hchain
  exact hchain.left_of_append

theorem ShapedBefore.right {next : Token} {tokens later : List Token}
    (h : ShapedBefore next (tokens ++ later)) : ShapedBefore next later := by
  refine ⟨fun token ht => h.proper token (List.mem_append_right _ ht), ?_⟩
  have hchain := h.chain
  rw [List.append_assoc] at hchain
  exact hchain.right_of_append

/-- A node begins with a text or a name. -/
theorem ParseNode.WellFormed.kind_head? {node : ParseNode} {room : Nat} (h : node.WellFormed room)
    {tokens : List Token} {token : Token} (ht : token ∈ (node.flatten ++ tokens).head?) :
    token.kind ≠ .argumentOpen := by
  cases node with
  | text word text =>
    obtain rfl : word = token := Option.some.inj ht
    simp [h.1]
  | element head name arguments =>
    obtain rfl : head = token := Option.some.inj ht
    simp [h.1]

/-- Arguments end with a closing run. -/
theorem ParseNode.kind_getLast?_flattenArguments {arguments : List ParseBlock} {room : Nat}
    (h : ParseNode.ArgumentsWellFormed arguments room) (hne : arguments ≠ []) :
    ∃ last ∈ (ParseNode.flattenArguments arguments).getLast?, last.kind = .argumentClose := by
  induction arguments with
  | nil => exact absurd rfl hne
  | cons argument rest ih =>
    obtain ⟨first, children, last⟩ := argument
    obtain ⟨⟨-, -, hclose, -⟩, hrest⟩ := h
    cases rest with
    | nil =>
      refine ⟨last, ?_, hclose⟩
      simp [ParseNode.flattenArguments, ParseBlock.flattenArgument, List.getLast?_cons]
    | cons argument rest =>
      obtain ⟨last', hlast', hclose'⟩ := ih hrest (List.cons_ne_nil _ _)
      refine ⟨last', ?_, hclose'⟩
      rw [ParseNode.flattenArguments, List.getLast?_append_of_ne_nil _ ?_]
      · exact hlast'
      · rintro hnil
        simp [hnil] at hlast'

/-- Two nodes of a tree whose tokens are shaped can stand one behind the other. -/
theorem ParseNode.mayPrecede {node next : ParseNode} {room : Nat} (hnode : node.WellFormed room)
    (hnext : next.WellFormed room) (hw : node.toNode.Writable) {tokens : List Token}
    (hchain : (node.flatten ++ (next.flatten ++ tokens)).IsChain Token.MayPrecede) :
    node.toNode.MayPrecede next.toNode := by
  have htouch := (List.isChain_append.1 hchain).2.2
  cases next with
  | element => cases node <;> trivial
  | text word' _ =>
    obtain ⟨hk', rfl⟩ := hnext
    cases node with
    | text word _ =>
      have hprecede := htouch word rfl word' rfl
      rw [Token.MayPrecede, hnode.1] at hprecede
      exact absurd hk' hprecede
    | element head name arguments =>
      obtain ⟨-, hne, -⟩ := hw
      have hne : arguments ≠ [] := by
        rintro rfl
        exact hne rfl
      obtain ⟨last, hlast, hclose⟩ := ParseNode.kind_getLast?_flattenArguments hnode.2.2.2 hne
      have hlast' : last ∈ (ParseNode.flatten (.element head name arguments)).getLast? := by
        rw [ParseNode.flatten, List.getLast?_cons]
        simp [Option.mem_def.1 hlast]
      have hprecede := htouch last hlast' word' rfl
      rw [Token.MayPrecede, hclose] at hprecede
      exact hprecede hk'

mutual

/-- A node of a tree whose tokens are shaped can be written. -/
theorem ParseNode.writable_toNode : ∀ (node : ParseNode) {room : Nat}, node.WellFormed room →
    ∀ {next : Token}, next.kind ≠ .argumentOpen → ShapedBefore next node.flatten →
      node.toNode.Writable
  | .text token _, _, ⟨hk, htext⟩, next, _, hshaped => by
    have hproper := hshaped.proper token (List.mem_singleton_self token)
    rw [Token.Proper, hk, ← htext] at hproper
    exact hproper
  | .element token name arguments, _, ⟨hk, hspelled, _, harguments⟩, next, hnext, hshaped => by
    rw [ParseNode.flatten, ← List.singleton_append] at hshaped
    have hproper := hshaped.proper token (by simp)
    rw [Token.Proper, hk] at hproper
    obtain ⟨chars, hname, hchars⟩ := hproper
    refine ⟨?_, ?_, ParseNode.writable_toArguments arguments harguments hshaped.right⟩
    · rw [← Token.names_iff.1 hspelled]
      simpa [elementName, hname] using hchars
    · rintro hnil
      cases arguments with
      | cons => simp [ParseNode.toArguments] at hnil
      | nil =>
        have hprecede : token.MayPrecede next := by
          simpa [ParseNode.flattenArguments] using hshaped.chain
        rw [Token.MayPrecede, hk] at hprecede
        exact hnext hprecede

/-- Nodes of a tree whose tokens are shaped can be written. -/
theorem ParseNode.writable_toNodes : ∀ (nodes : List ParseNode) {room : Nat},
    ParseNode.NodesWellFormed nodes room → ∀ {next : Token}, next.kind ≠ .argumentOpen →
      ShapedBefore next (ParseNode.flattenNodes nodes) → Block.Writable (ParseNode.toNodes nodes)
  | [], _, _, _, _, _ => trivial
  | node :: rest, room, ⟨hnode, hrest⟩, next, hnext, hshaped => by
    obtain ⟨behind, hbehind, hleft⟩ := hshaped.left
    have hkind : behind.kind ≠ .argumentOpen := by
      cases rest with
      | nil =>
        obtain rfl : next = behind := Option.some.inj hbehind
        exact hnext
      | cons node' rest =>
        rw [ParseNode.flattenNodes, List.append_assoc] at hbehind
        exact hrest.1.kind_head? hbehind
    have hw := ParseNode.writable_toNode node hnode hkind hleft
    refine ⟨hw, ?_, ParseNode.writable_toNodes rest hrest hnext hshaped.right⟩
    intro n hn
    cases rest with
    | nil => cases hn
    | cons node' rest =>
      obtain rfl : node'.toNode = n := Option.some.inj hn
      have hchain := hshaped.chain
      rw [ParseNode.flattenNodes, ParseNode.flattenNodes, List.append_assoc, List.append_assoc]
        at hchain
      exact ParseNode.mayPrecede hnode hrest.1 hw hchain

/-- Arguments of a tree whose tokens are shaped can be written. -/
theorem ParseNode.writable_toArguments : ∀ (arguments : List ParseBlock) {room : Nat},
    ParseNode.ArgumentsWellFormed arguments room → ∀ {next : Token},
      ShapedBefore next (ParseNode.flattenArguments arguments) →
        Node.WritableArguments (ParseNode.toArguments arguments)
  | [], _, _, _, _ => trivial
  | ⟨first, children, last⟩ :: rest, _, ⟨⟨_, hchildren, hclose, _⟩, hrest⟩, next, hshaped => by
    have htokens : ParseNode.flattenArguments (⟨first, children, last⟩ :: rest) =
        [first] ++ (ParseNode.flattenNodes children ++ ([last] ++
          ParseNode.flattenArguments rest)) := by
      simp [ParseNode.flattenArguments, ParseBlock.flattenArgument]
    rw [htokens] at hshaped
    obtain ⟨behind, hbehind, hinside⟩ := hshaped.right.left
    obtain rfl : last = behind := Option.some.inj hbehind
    have hnodes := ParseNode.writable_toNodes children hchildren (by simp [hclose]) hinside
    exact ⟨hnodes, ParseNode.writable_toArguments rest hrest hshaped.right.right.right⟩

end

/-- **Every block that is read can be written**: its texts are not empty and its names proper, its
    elements have arguments, and its nodes stay apart. -/
theorem Block.writable_of_ofSource {source : String} {b : Block}
    (h : Block.ofSource source = .ok b) : Block.Writable b := by
  obtain ⟨tokens, ⟨first, children, last⟩, htokens, htree, rfl⟩ := Block.ofSource_eq_ok_iff.1 h
  obtain ⟨hflatten, -, hnodes, hlast⟩ := ParseBlock.isTreeOf_of_ofTokens htree
  have hshaped := Scanner.shaped_run htokens
  obtain ⟨later, hlater⟩ := hflatten
  have hbefore : ShapedBefore last (ParseNode.flattenNodes children) := by
    refine ⟨fun token ht => hshaped.proper token ?_, ?_⟩
    · rw [← hlater, ParseBlock.flatten]
      simp [ht]
    · have hchain := hshaped.chain
      rw [← hlater] at hchain
      exact hchain.left_of_append
  exact ParseNode.writable_toNodes children hnodes
    (by simp [show last.kind = .endOfInput from hlast])
    hbefore

end BraceMarkup
