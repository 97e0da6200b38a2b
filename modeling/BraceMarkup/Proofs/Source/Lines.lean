/-
  Documents compose line by line.

  Where a document ends with a line feed and has a tree, another one can be put
  behind it.  The tree of both is that of the first one and that of the second,
  with the texts that meet between them as one text; a fault in the second one
  is the fault of both, further down by the lines of the first.

  * `tokenize_append`: the tokens of two texts, of which the first ends a line;
  * `Block.ofSource_eq_read`: a document by the tokens in front of its end;
  * `Block.behindText`: a block behind the text of a line;
  * `Block.ofSource_append`: **the document made of two**.
-/
import BraceMarkup.Proofs.Source.Levels
import BraceMarkup.Proofs.ParseTree.Continued
import BraceMarkup.Proofs.Token.Lines

namespace BraceMarkup

/-! ## Tokens -/

/-- A byte order mark belongs to the first of two texts. -/
theorem sourceChars_append {a b : String} (ha : EndsLine a.toList) :
    sourceChars (a ++ b) = sourceChars a ++ b.toList ∧ EndsLine (sourceChars a) ∧
      (sourceChars a).count '\n' = a.toList.count '\n' := by
  by_cases hmark : a.toList.head? = some '\uFEFF'
  · obtain ⟨cs, hcs⟩ := List.head?_eq_some_iff.1 hmark
    have hchars : sourceChars a = cs := by
      rw [sourceChars, hcs]
      rfl
    have happend : sourceChars (a ++ b) = cs ++ b.toList := by
      rw [sourceChars, String.toList_append, hcs]
      rfl
    rw [hcs] at ha ⊢
    exact ⟨by rw [happend, hchars], hchars ▸ ha.of_cons (by decide), by simp [hchars]⟩
  · have hchars := sourceChars_eq_toList hmark
    have happend : (a ++ b).toList.head? ≠ some '\uFEFF' := by
      rw [String.toList_append, ha.head?_append]
      exact hmark
    rw [sourceChars_eq_toList happend, String.toList_append, hchars]
    exact ⟨rfl, ha, rfl⟩

/-- The tokens of two texts, of which the first ends a line.  They are those of the first text
    and those of the second, so many lines further down, except that the texts at the end of the
    one and at the beginning of the other are one token. -/
theorem tokenize_append {a b : String} (ha : EndsLine a.toList)
    (hb : b.toList.head? ≠ some '\uFEFF') {tokens : List Token} (h : tokenize a = .ok tokens) :
    ∃ early last line position text later,
      tokens = early ++ (textToken position line ++ [last]) ∧ line ≠ [] ∧
      tokenize b = later.map (textToken .start text ++ ·) ∧
      tokenize (a ++ b) = (Scanner.downRun (a.toList.count '\n') later).map
        (early ++ textToken position (text ++ line) ++ ·) := by
  obtain ⟨happend, hline, hcount⟩ := sourceChars_append (b := b) ha
  obtain ⟨early, line, position, hne, htokens, hreads⟩ := Scanner.reads_lines h (.inl hline)
  obtain ⟨text, later, htext⟩ := Scanner.exists_textThen (.ofList b.toList) rfl
  have hend : Position.start.advanceList (sourceChars a) =
      Position.start.down (a.toList.count '\n') := hcount ▸ hline.advanceList
  refine ⟨early, _, line, position, text, later, htokens, hne, ?_, ?_⟩
  · have hrun := htext 0 [] .start
    rw [Scanner.downRun_zero, List.append_nil] at hrun
    rw [tokenize, sourceChars_eq_toList hb]
    exact hrun
  · have hread : (Scanner.ofList (sourceChars a ++ b.toList)).run =
        (Scanner.run ⟨b.toList, Position.start.advanceList (sourceChars a), line, position, []⟩).map
          (early ++ ·) := hreads b.toList
    have hrun : Scanner.run ⟨b.toList, Position.start.down _, line, position, []⟩ = _ :=
      htext (a.toList.count '\n') line position
    rw [tokenize, happend, hread, hend, hrun]
    cases Scanner.downRun (a.toList.count '\n') later <;> simp [Except.map]

/-! ## Blocks -/

/-- A document is what the tokens in front of its end make. -/
theorem Block.ofSource_eq_read {source : String} {early : List Token} {last : Token}
    (h : tokenize source = .ok (early ++ [last])) :
    last.kind = .endOfInput ∧
      Block.ofSource source = (TreeBuilder.empty.read early).mapError .parse := by
  obtain ⟨early', last', heq, hlast, -, hkinds⟩ := Scanner.run_eq_append h
  obtain ⟨rfl, hlasts⟩ := List.append_inj' heq rfl
  obtain rfl := (List.cons.inj hlasts).1
  refine ⟨hlast, ?_⟩
  rw [← ofTokens_eq_read hkinds hlast, Block.ofSource, ParseBlock.ofSource, h]
  show ((ParseBlock.ofTokens (early ++ [last])).mapError SourceError.parse >>= fun tree =>
    Except.ok tree.toBlock) = _
  cases ParseBlock.ofTokens (early ++ [last]) <;> rfl

theorem Block.ofSource_of_lexError {source : String} {e : LexError}
    (h : tokenize source = .error e) : Block.ofSource source = .error (.lex e) := by
  rw [Block.ofSource, ParseBlock.ofSource, h]
  rfl

/-- What stands behind the first text of a run ends the run. -/
theorem exists_end_of_tokenize {source : String} {position : Position} {pending : List Char}
    {later : List Token} (h : tokenize source = .ok (textToken position pending ++ later)) :
    ∃ rest last, later = rest ++ [last] := by
  rcases List.eq_nil_or_concat later with rfl | ⟨rest, last, rfl⟩
  · obtain ⟨early, last, heq, hlast, -⟩ := Scanner.run_eq_append h
    have hmem : last ∈ textToken position pending := by
      rw [← List.append_nil (textToken position pending), heq]
      simp
    simp [kind_textToken hmem] at hlast
  · exact ⟨rest, last, List.concat_eq_append⟩

/-- The nodes of pending text. -/
def textNodes (pending : List Char) : Block :=
  if pending.isEmpty then [] else [.text (String.ofList pending.reverse)]

/-- Pending text behind some nodes, which are listed last first. -/
theorem toNodes_textToken (position : Position) (pending : List Char) (nodes : List ParseNode) :
    ParseNode.toNodes ((textToken position pending).map ParseNode.ofText ++ nodes).reverse =
      ParseNode.toNodes nodes.reverse ++ textNodes pending := by
  unfold textToken textNodes
  split
  · simp
  · simp [ParseNode.toNodes, ParseNode.toNode]

namespace TreeBuilder

variable {position : Position} {pending : List Char} {nodes : List ParseNode}

/-- Pending text becomes a node. -/
theorem read_textToken (t : TreeBuilder) (position : Position) (pending : List Char)
    (later : List Token) : t.read (textToken position pending ++ later) =
      (⟨(textToken position pending).map .ofText ++ t.nodes, t.opened⟩ : TreeBuilder).read
        later := by
  unfold textToken
  split
  · rfl
  · rw [List.singleton_append, read_cons]
    rfl

theorem endsInText (h : pending = [] → nodes = []) :
    EndsInText ((textToken position pending).map ParseNode.ofText ++ nodes) := by
  unfold textToken
  split
  · next hp =>
    rw [h (List.isEmpty_iff.1 hp)]
    rintro _ _ _ _ ⟨⟩
  · rintro _ _ _ _ ⟨⟩

/-- Tokens behind text at the beginning of a document. -/
theorem read_behind_text (position : Position) (pending : List Char) (tokens : List Token) :
    empty.read (textToken position pending ++ tokens) =
      (empty.read tokens).map (textNodes pending ++ ·) := by
  have hnodes := toNodes_textToken position pending []
  rw [List.reverse_nil, ParseNode.toNodes, List.nil_append] at hnodes
  rw [read_textToken, ← hnodes]
  exact read_onto empty (endsInText fun _ => rfl) tokens

/-- Tokens further down, behind other tokens and text. -/
theorem read_behind_line {early : List Token}
    (hearly : early.foldlM TreeBuilder.step empty = .ok ⟨nodes, []⟩) (hpending : pending ≠ [])
    (position : Position) (k : Nat) (tokens : List Token) :
    empty.read (early ++ textToken position pending ++ tokens.map (·.down k)) =
      ((empty.read tokens).map (ParseNode.toNodes nodes.reverse ++ textNodes pending ++ ·)).mapError
        (ParseError.down · k) := by
  rw [List.append_assoc, read_append, hearly, ← toNodes_textToken position]
  exact (read_textToken ⟨nodes, []⟩ position pending (tokens.map (·.down k))).trans
    (read_continued (endsInText fun h => absurd h hpending) k tokens)

/-- A document that ends with text. -/
theorem of_read_text {early : List Token} {b : Block}
    (h : empty.read (early ++ textToken position pending) = .ok b) :
    ∃ nodes, early.foldlM TreeBuilder.step empty = .ok ⟨nodes, []⟩ ∧
      b = ParseNode.toNodes nodes.reverse ++ textNodes pending := by
  rw [read_append, bind_eq_ok_iff] at h
  obtain ⟨⟨nodes, opened⟩, hearly, hb⟩ := h
  rw [← List.append_nil (textToken position pending), read_textToken] at hb
  cases opened with
  | nil =>
    refine ⟨nodes, hearly, ?_⟩
    rw [← toNodes_textToken position]
    exact (Except.ok.inj hb).symm
  | cons innermost outer => cases hb

end TreeBuilder

/-- The block behind the text of a line: text at its beginning joins the line. -/
def Block.behindText (line : String) : Block → Block
  | .text s :: rest => .text (line ++ s) :: rest
  | b => .text line :: b

theorem textNodes_of_ne_nil {pending : List Char} (h : pending ≠ []) :
    textNodes pending = [.text (String.ofList pending.reverse)] := by
  rw [textNodes, if_neg (by simpa using h)]

/-- The text that joins a line is the text pending behind it. -/
theorem Block.behindText_textNodes {line text : List Char} {b : Block} (hline : line ≠ [])
    (hb : ∀ s rest, b ≠ .text s :: rest) :
    (textNodes text ++ b).behindText (String.ofList line.reverse) =
      textNodes (text ++ line) ++ b := by
  rw [textNodes_of_ne_nil (List.append_ne_nil_of_right_ne_nil text hline)]
  cases text with
  | nil =>
    rcases b with _ | ⟨s | _, rest⟩
    · rfl
    · exact absurd rfl (hb s rest)
    · rfl
  | cons c text =>
    rw [textNodes_of_ne_nil (List.cons_ne_nil c text), List.reverse_append, String.ofList_append]
    rfl

/-- No text stands behind a text. -/
theorem Block.ne_text_of_ofSource {source : String} {early later : Block} {s : String}
    (h : Block.ofSource source = .ok (early ++ .text s :: later)) :
    ∀ s' rest, later ≠ .text s' :: rest := by
  rintro s' rest rfl
  have hapart := (Block.writable_of_ofSource h).levelShape.apart.right_of_append
  exact (List.isChain_cons_cons.1 hapart).1

/-- The fault `k` lines further down. -/
def SourceError.down (k : Nat) : SourceError → SourceError
  | .lex e => .lex (e.down k)
  | .parse e => .parse (e.down k)

/-- A document behind another one, by its tokens.  These are those of the first one, `early`, up to
    the text at its end, the text that joins that, and those behind the first text of the second,
    `later`. -/
theorem Block.ofSource_of_tokens {both second : String} {early : List Token}
    {nodes : List ParseNode} {line text : List Char} {position : Position} {k : Nat}
    {later : Except LexError (List Token)}
    (hearly : early.foldlM TreeBuilder.step .empty = .ok ⟨nodes, []⟩) (hline : line ≠ [])
    (hsecond : tokenize second = later.map (textToken .start text ++ ·))
    (hboth : tokenize both =
      (Scanner.downRun k later).map (early ++ textToken position (text ++ line) ++ ·)) :
    Block.ofSource both = ((Block.ofSource second).map fun b =>
      ParseNode.toNodes nodes.reverse ++ b.behindText (String.ofList line.reverse)).mapError
        (SourceError.down k) := by
  cases later with
  | error fault =>
    rw [Block.ofSource_of_lexError (hsecond.trans rfl),
      Block.ofSource_of_lexError (hboth.trans rfl)]
    rfl
  | ok later =>
    obtain ⟨rest, final, rfl⟩ := exists_end_of_tokenize (hsecond.trans rfl)
    have hne := List.append_ne_nil_of_right_ne_nil text hline
    have hsecond : tokenize second = .ok (textToken .start text ++ rest ++ [final]) := by
      rw [hsecond, Except.map, List.append_assoc]
    have hboth : tokenize both = .ok (early ++ textToken position (text ++ line) ++
        rest.map (·.down k) ++ [final.down k]) := by
      rw [hboth, Scanner.downRun, List.map_append, Except.map, ← List.append_assoc]
      rfl
    have hb := (Block.ofSource_eq_read hsecond).2
    have hab := (Block.ofSource_eq_read hboth).2
    rw [TreeBuilder.read_behind_text] at hb
    rw [TreeBuilder.read_behind_line hearly hne] at hab
    rw [hb]
    cases hbody : TreeBuilder.empty.read rest with
    | error fault =>
      rw [hbody] at hab
      exact hab
    | ok body =>
      rw [hbody] at hab
      have hsum : Block.ofSource both =
          .ok (ParseNode.toNodes nodes.reverse ++ textNodes (text ++ line) ++ body) := hab
      have hapart : ∀ s rest, body ≠ .text s :: rest := by
        rw [textNodes_of_ne_nil hne, List.append_assoc, List.singleton_append] at hsum
        exact Block.ne_text_of_ofSource hsum
      rw [hsum, List.append_assoc, ← Block.behindText_textNodes hline hapart]
      rfl

/-- **The document made of two**, of which the first ends a line and has a tree.  The last node of
    that tree is a text.  If the second document has a tree, that of both is the first one with the
    second behind it, where a text at the beginning of the second joins the text at the end of the
    first.  A fault in the second document is the fault of both, as many lines further down as the
    first has. -/
theorem Block.ofSource_append {a b : String} {first : Block} (ha : EndsLine a.toList)
    (hfirst : Block.ofSource a = .ok first) (hb : b.toList.head? ≠ some '\uFEFF') :
    ∃ earlier line, first = earlier ++ [.text line] ∧
      (∀ second, Block.ofSource b = .ok second →
        Block.ofSource (a ++ b) = .ok (earlier ++ second.behindText line)) ∧
      ∀ e, Block.ofSource b = .error e →
        Block.ofSource (a ++ b) = .error (e.down (a.toList.count '\n')) := by
  obtain ⟨tokens, -, htokens, -, -⟩ := Block.ofSource_eq_ok_iff.1 hfirst
  obtain ⟨early, last, line, position, text, later, rfl, hline, hsecond, hboth⟩ :=
    tokenize_append ha hb htokens
  rw [← List.append_assoc] at htokens
  have hread := (Block.ofSource_eq_read htokens).2.symm.trans hfirst
  obtain ⟨nodes, hearly, rfl⟩ := TreeBuilder.of_read_text (mapError_eq_ok_iff.1 hread)
  have hdocument := Block.ofSource_of_tokens hearly hline hsecond hboth
  refine ⟨ParseNode.toNodes nodes.reverse, String.ofList line.reverse, ?_, ?_, ?_⟩
  · rw [textNodes_of_ne_nil hline]
  · intro second h
    rw [hdocument, h]
    rfl
  · intro e h
    rw [hdocument, h]
    rfl

/-- An element and a line of text, in front of more text and in front of a brace too many. -/
theorem Block.ofSource_append_line :
    let a := "#p\x7bx\x7d\nab\n"
    Block.ofSource a = .ok [.element "p" [[.text "x"]], .text "\nab\n"] ∧
      Block.ofSource (a ++ "cd#q\x7by\x7d") =
        .ok [.element "p" [[.text "x"]], .text "\nab\ncd", .element "q" [[.text "y"]]] ∧
      Block.ofSource (a ++ "c\nd\x7d") =
        .error (.lex ⟨.tooManyClosingBraces 1, ⟨4, 2⟩⟩) := by
  intro a
  have ha : EndsLine a.toList := ⟨"#p\x7bx\x7d\nab".toList, by decide⟩
  have hfirst : Block.ofSource a = .ok [.element "p" [[.text "x"]], .text "\nab\n"] := by
    decide +kernel
  refine ⟨hfirst, ?_, ?_⟩
  · obtain ⟨earlier, line, heq, hok, -⟩ :=
      Block.ofSource_append (b := "cd#q\x7by\x7d") ha hfirst (by decide)
    have heq : [Node.element "p" [[.text "x"]]] ++ [.text "\nab\n"] = earlier ++ [.text line] := heq
    obtain ⟨rfl, hline⟩ := List.append_inj' heq rfl
    obtain rfl := Node.text.inj (List.cons.inj hline).1
    exact hok [.text "cd", .element "q" [[.text "y"]]] (by decide +kernel)
  · obtain ⟨_, _, -, -, herror⟩ :=
      Block.ofSource_append (b := "c\nd\x7d") ha hfirst (by decide)
    rw [show a.toList.count '\n' = 2 by decide] at herror
    exact herror (.lex ⟨.tooManyClosingBraces 1, ⟨2, 2⟩⟩) (by decide +kernel)

end BraceMarkup
