/-
  Text without markup.

  Outside of all arguments a scanner stops at two things only: at a closing
  brace, which is a fault there, and at a `#` with the opening brace of an
  argument behind its name.  A `#` without one is passed over like any other
  character, and so is an opening brace.  So the texts that are read without
  any element are those in which neither is found, and they are read as they
  stand.

  * `BeginsElement`: a `#`, its name, spaces and an opening brace;
  * `Unmarked`: no closing brace, and nowhere the beginning of an element, which
    can be decided;
  * `Scanner.reads_unmarked`: unmarked text is left pending, to its end;
  * `Scanner.unmarked_of_run`: where no name is completed, the text is unmarked;
  * `ParseBlock.flatten_eq_of_tokenize`: the tree of a text takes all its tokens;
  * `Block.ofSource_unmarked`: **the texts without markup**, and what they stand
    for.
-/
import BraceMarkup.Document
import BraceMarkup.Proofs.Source.Shape
import BraceMarkup.Proofs.Template.Composition
import BraceMarkup.Proofs.Token.Fault
import BraceMarkup.Proofs.Token.Reading
import Mathlib.Data.List.Infix

namespace BraceMarkup

/-! ## Markup in a text -/

/-- An element begins at the front of the list: a `#`, any number of name characters, any number of
    spaces and an opening brace. -/
def BeginsElement (cs : List Char) : Prop :=
  ∃ name spaces rest, cs = '#' :: (name ++ (List.replicate spaces ' ' ++ '{' :: rest)) ∧
    ∀ c ∈ name, isNameChar c = true

/-- There is no closing brace in the text, and nowhere does an element begin. -/
structure Unmarked (cs : List Char) : Prop where
  brace : '}' ∉ cs
  element : ∀ tail, tail <:+ cs → ¬ BeginsElement tail

theorem not_beginsElement_cons {c : Char} (hc : c ≠ '#') (cs : List Char) :
    ¬ BeginsElement (c :: cs) := by
  rintro ⟨name, spaces, rest, h, -⟩
  exact hc (List.cons.inj h).1

/-- What is behind the name and the spaces begins with a brace. -/
theorem beginsElement_hash_iff {cs : List Char} :
    BeginsElement ('#' :: cs) ↔
      ((cs.dropWhile isNameChar).dropWhile (· == ' ')).head? = some '{' := by
  constructor
  · rintro ⟨name, spaces, rest, h, hname⟩
    obtain rfl := (List.cons.inj h).2
    have hstop : ((List.replicate spaces ' ' ++ '{' :: rest).dropWhile isNameChar) =
        List.replicate spaces ' ' ++ '{' :: rest := by
      cases spaces with
      | zero => exact List.dropWhile_cons_of_neg (by decide +kernel)
      | succ n => exact List.dropWhile_cons_of_neg (by decide +kernel)
    have hspaces : ∀ c ∈ List.replicate spaces ' ', (c == ' ') = true := by simp
    rw [List.dropWhile_append_of_pos hname, hstop, List.dropWhile_append_of_pos hspaces]
    rfl
  · intro h
    obtain ⟨rest, hrest⟩ := List.head?_eq_some_iff.1 h
    refine ⟨cs.takeWhile isNameChar, runLength ' ' (cs.dropWhile isNameChar), rest, ?_, ?_⟩
    · rw [← hrest, ← take_runLength, runLength, ← drop_length_takeWhile (· == ' '),
        List.take_append_drop, List.takeWhile_append_dropWhile]
    · intro c hc
      exact List.all_eq_true.1 List.all_takeWhile c hc

theorem unmarked_cons {c : Char} {cs : List Char} :
    Unmarked (c :: cs) ↔ c ≠ '}' ∧ ¬ BeginsElement (c :: cs) ∧ Unmarked cs := by
  constructor
  · intro h
    have hc : c ≠ '}' := (List.ne_of_not_mem_cons h.brace).symm
    have hcs : '}' ∉ cs := List.not_mem_of_not_mem_cons h.brace
    refine ⟨hc, h.element _ List.suffix_rfl, hcs, fun tail ht => ?_⟩
    exact h.element tail (ht.trans (List.suffix_cons c cs))
  · rintro ⟨hc, hbegins, h⟩
    refine ⟨List.not_mem_cons_of_ne_of_not_mem (Ne.symm hc) h.brace, fun tail ht => ?_⟩
    rcases List.suffix_cons_iff.1 ht with rfl | ht
    · exact hbegins
    · exact h.element tail ht

instance : DecidablePred BeginsElement
  | [] => isFalse fun ⟨_, _, _, h, _⟩ => List.cons_ne_nil _ _ h.symm
  | c :: cs =>
    if h : c = '#' then decidable_of_iff _ (h ▸ beginsElement_hash_iff.symm)
    else isFalse (not_beginsElement_cons h cs)

theorem unmarked_iff {cs : List Char} :
    Unmarked cs ↔ '}' ∉ cs ∧ ∀ tail ∈ cs.tails, ¬ BeginsElement tail := by
  simp only [List.mem_tails]
  exact ⟨fun h => ⟨h.brace, h.element⟩, fun ⟨hbrace, helement⟩ => ⟨hbrace, helement⟩⟩

instance : DecidablePred Unmarked := fun _ => decidable_of_iff _ unmarked_iff.symm

/-! ## Scanning outside of all arguments -/

namespace Scanner

variable {s : Scanner} {c : Char} {cs : List Char}

/-- A character that is neither a closing brace nor the beginning of an element. -/
theorem reads_unmarked_char (ho : s.opened = []) (hs : s.rest = c :: cs) (hc : c ≠ '}')
    (hbegins : ¬ BeginsElement (c :: cs)) : s.Reads [] (s.keep 1) := by
  by_cases hh : c = '#'
  · subst hh
    refine reads_hash hs ?_
    rw [runLength_eq_zero (mt beginsElement_hash_iff.2 hbegins), depth, ho]
    exact Nat.one_pos
  · exact (Step.char hs hh hc).reads

/-- **Unmarked text is left pending**, to its end. -/
theorem reads_unmarked (ho : s.opened = []) (h : Unmarked s.rest) :
    s.Reads [] (s.keep s.rest.length) := by
  generalize hs : s.rest = cs at h
  induction cs generalizing s with
  | nil => exact s.keep_zero ▸ Reads.refl s
  | cons c cs ih =>
    obtain ⟨hc, hbegins, hcs⟩ := unmarked_cons.1 h
    have hrest : (s.keep 1).rest = cs := by simp [hs]
    rw [List.length_cons, Nat.add_comm, keep_add]
    exact (reads_unmarked_char ho hs hc hbegins).trans (ih ho hrest hcs)

/-- A closing brace outside of all arguments is a fault. -/
theorem run_closing_brace (ho : s.opened = []) (hs : s.rest = '}' :: cs) (tokens : List Token) :
    s.run ≠ .ok tokens := by
  rw [run_of_fault (.stray hs rfl ho)]
  rintro ⟨⟩

/-- The name of an element that begins outside of all arguments is completed. -/
theorem run_beginsElement (ho : s.opened = []) (hs : s.rest = c :: cs)
    (hbegins : BeginsElement (c :: cs)) {tokens : List Token} (h : s.run = .ok tokens) :
    ∃ token ∈ tokens, token.kind = .elementName := by
  by_cases hh : c = '#'
  · subst hh
    have hbraces : 0 < runLength '{' (s.rest.drop (nameLength s.rest +
        runLength ' ' (s.rest.drop (nameLength s.rest)))) := by
      have hname : s.rest.drop (nameLength s.rest) = cs.dropWhile isNameChar := by
        rw [hs, nameLength, Nat.add_comm, List.drop_succ_cons, List.tail_cons,
          drop_length_takeWhile]
      have hspaces : ∀ ds : List Char, ds.drop (runLength ' ' ds) = ds.dropWhile (· == ' ') :=
        drop_length_takeWhile _
      rw [← List.drop_drop, hname, hspaces]
      obtain ⟨rest, hrest⟩ := List.head?_eq_some_iff.1 (beginsElement_hash_iff.1 hbegins)
      exact runLength_pos hrest
    have hstep := Step.element hs rfl rfl rfl hbraces (by rw [depth, ho]; exact hbraces)
    rw [run_of_step hstep] at h
    cases hrun : Scanner.run _ with
    | error e => rw [hrun] at h; cases h
    | ok later =>
      rw [hrun] at h
      cases h
      exact ⟨_, List.mem_append_left _ (List.mem_append_right _ List.mem_cons_self), rfl⟩
  · exact absurd hbegins (not_beginsElement_cons hh cs)

/-- **Where no name is completed, the text is unmarked.** -/
theorem unmarked_of_run (ho : s.opened = []) {tokens : List Token} (h : s.run = .ok tokens)
    (hnames : ∀ token ∈ tokens, token.kind ≠ .elementName) : Unmarked s.rest := by
  generalize hs : s.rest = cs
  induction cs generalizing s with
  | nil =>
    refine ⟨List.not_mem_nil, ?_⟩
    rintro tail ht ⟨name, spaces, rest, rfl, -⟩
    cases List.suffix_nil.1 ht
  | cons c cs ih =>
    have hc : c ≠ '}' := by
      rintro rfl
      exact run_closing_brace ho hs tokens h
    have hbegins : ¬ BeginsElement (c :: cs) := by
      intro hbegins
      obtain ⟨token, ht, hk⟩ := run_beginsElement ho hs hbegins h
      exact hnames token ht hk
    refine unmarked_cons.2 ⟨hc, hbegins, ih (s := s.keep 1) ho ?_ (by simp [hs])⟩
    have hreads := reads_unmarked_char ho hs hc hbegins
    rw [Reads, h] at hreads
    cases hrun : (s.keep 1).run with
    | error e => rw [hrun] at hreads; cases hreads
    | ok later => rw [hrun] at hreads; exact hreads.symm

end Scanner

/-! ## Trees without elements -/

/-- No element stands in the block, at no depth. -/
def Block.HasNoElement (b : Block) : Prop :=
  ∀ name arguments, .element name arguments ∉ b.preorder

/-- Where no element stands there are texts only. -/
theorem ParseNode.kind_of_hasNoElement {nodes : List ParseNode} {room : Nat}
    (hnodes : ParseNode.NodesWellFormed nodes room)
    (h : Block.HasNoElement (ParseNode.toNodes nodes)) :
    ∀ token ∈ ParseNode.flattenNodes nodes, token.kind = .text := by
  induction nodes with
  | nil => exact fun token ht => absurd ht List.not_mem_nil
  | cons node rest ih =>
    cases node with
    | element token name arguments =>
      refine absurd ?_ (h name (ParseNode.toArguments arguments))
      simp [ParseNode.toNodes, ParseNode.toNode, Block.preorder, Node.preorder]
    | text token text =>
      have hrest : Block.HasNoElement (ParseNode.toNodes rest) := fun name arguments hm =>
        h name arguments (by simp [ParseNode.toNodes, Block.preorder, hm])
      intro later ht
      rcases List.mem_cons.1 ht with rfl | ht
      · exact hnodes.1.1
      · exact ih hnodes.2 hrest later ht

/-- **The tree of a text takes all its tokens.** -/
theorem ParseBlock.flatten_eq_of_tokenize {source : String} {tokens : List Token}
    {tree : ParseBlock} (htokens : tokenize source = .ok tokens)
    (htree : ParseBlock.ofTokens tokens = .ok tree) : tree.flatten = tokens := by
  obtain ⟨⟨later, hlater⟩, -, -, hlast⟩ := ParseBlock.isTreeOf_of_ofTokens htree
  obtain ⟨early, last, rfl, -, -, hearly⟩ := Scanner.run_eq_append htokens
  rcases List.eq_nil_or_concat later with rfl | ⟨later, t, rfl⟩
  · rwa [List.append_nil] at hlater
  · -- the end token of the tree would stand in front of that of the text
    rw [List.concat_eq_append, ← List.append_assoc] at hlater
    have hmem : tree.last ∈ early := by
      rw [← (List.append_inj' hlater rfl).1, ParseBlock.flatten]
      simp
    exact absurd hlast (hearly _ hmem)

/-- The tokens of unmarked text: the whole text, if there is any, and its end. -/
theorem tokenize_of_unmarked {source : String} (h : Unmarked (sourceChars source)) :
    ∃ position, tokenize source =
      .ok (textToken .start (sourceChars source).reverse ++ [⟨.endOfInput, "", position⟩]) := by
  have hreads := Scanner.reads_unmarked (s := .ofList (sourceChars source)) rfl h
  rw [Scanner.Reads, Scanner.run_of_end (s := Scanner.keep _ _) (by simp) rfl] at hreads
  simp only [Except.map, List.nil_append, Scanner.ofList, Scanner.keep, List.take_length,
    List.append_nil] at hreads
  exact ⟨_, hreads⟩

/-- The block of unmarked text: one text node, or none where there is no text. -/
def Block.ofText (text : List Char) : Block :=
  if text.isEmpty then [] else [.text (String.ofList text)]

theorem Block.hasNoElement_ofText (text : List Char) : (Block.ofText text).HasNoElement := by
  intro name arguments
  unfold Block.ofText
  split <;> simp [Block.preorder, Node.preorder]

/-- The tree of one text token, or of none, and the end token. -/
theorem ParseBlock.ofTokens_textToken (text : List Char) (first last : Position) :
    ∃ tree, ParseBlock.ofTokens (textToken first text.reverse ++ [⟨.endOfInput, "", last⟩]) =
      .ok tree ∧ tree.toBlock = Block.ofText text := by
  rcases text with _ | ⟨c, cs⟩
  · exact ⟨_, ParseBlock.ofTokens_cons _ _, rfl⟩
  · have htoken : textToken first (c :: cs).reverse =
        [⟨.text, String.ofList (c :: cs), first⟩] := by simp [textToken]
    rw [htoken]
    exact ⟨_, ParseBlock.ofTokens_cons _ _, rfl⟩

theorem Block.ofSource_of_unmarked {source : String} (h : Unmarked (sourceChars source)) :
    Block.ofSource source = .ok (Block.ofText (sourceChars source)) := by
  obtain ⟨position, htokens⟩ := tokenize_of_unmarked h
  obtain ⟨tree, htree, hblock⟩ := ParseBlock.ofTokens_textToken (sourceChars source) .start position
  exact Block.ofSource_eq_ok_iff.2 ⟨_, tree, htokens, htree, hblock⟩

/-- A text from which a tree without elements is read has no markup in it. -/
theorem Block.unmarked_of_ofSource {source : String} {b : Block}
    (h : Block.ofSource source = .ok b) (hb : b.HasNoElement) : Unmarked (sourceChars source) := by
  obtain ⟨tokens, ⟨first, children, last⟩, htokens, htree, rfl⟩ := Block.ofSource_eq_ok_iff.1 h
  obtain ⟨-, -, hnodes, (hlast : last.kind = .endOfInput)⟩ :=
    ParseBlock.isTreeOf_of_ofTokens htree
  refine Scanner.unmarked_of_run (s := .ofList (sourceChars source)) rfl htokens ?_
  rw [← ParseBlock.flatten_eq_of_tokenize htokens htree, ParseBlock.flatten]
  intro token ht
  rcases List.mem_append.1 ht with ht | ht
  · simp [ParseNode.kind_of_hasNoElement hnodes hb token ht]
  · simp [List.mem_singleton.1 ht, hlast]

/-! ## What unmarked text stands for -/

/-- A block of text evaluates to its text in every session that does not trim spaces, and leaves the
    session as it is. -/
theorem Engine.evaluate_ofText {e : Engine} (he : e.config.trimSpaces = false) (text : List Char) :
    e.evaluate (Block.ofText text) = (.ok (String.ofList text), e) := by
  have hregular := Engine.topLevel_regular e.config
  rcases text with _ | ⟨c, cs⟩
  · have hpadded : ¬ (Block.ofText []).IsPaddedElement := fun h => Nat.zero_ne_one h.1
    rw [Engine.evaluate, hregular.blockText hpadded]
    rfl
  · have hpadded : ¬ (Block.ofText (c :: cs)).IsPaddedElement := fun h =>
      Nat.zero_ne_one h.1
    have hparts : evaluateParts e.config (Engine.topLevel e.config).element
        (Block.ofText (c :: cs)) = pure [.text (String.ofList (c :: cs))] := by
      simp [Block.ofText, evaluateParts, he]
    rw [Engine.evaluate, hregular.blockText hpadded, hparts, pure_bind]
    exact congrArg (fun s => (Except.ok s, e)) String.append_empty

/-- A block of text is a document without metadata. -/
theorem Document.ofBlock_ofText (text : List Char) :
    Document.ofBlock (Block.ofText text) = .ok ⟨String.ofList text, []⟩ := by
  rcases text with _ | ⟨c, cs⟩
  · rfl
  · have hextend : Document.ofBlock (Block.ofText (c :: cs)) =
        .ok ⟨"" ++ String.ofList (c :: cs), []⟩ := rfl
    rw [hextend, String.empty_append]

/-- **Text without markup is read as it stands, and no other text is.**  A tree without elements is
    read exactly from the texts in which, behind a byte order mark that may stand in front, there is
    no closing brace and nowhere a `#`, a name, spaces and an opening brace.  The tree is then the
    text itself, as one node unless the text is empty, and so is what every session evaluates it to,
    and the text of the document. -/
theorem Block.ofSource_unmarked (source : String) :
    ((∃ b, Block.ofSource source = .ok b ∧ b.HasNoElement) ↔ Unmarked (sourceChars source)) ∧
    (Unmarked (sourceChars source) →
      let text := String.ofList (sourceChars source)
      let b : Block := if text = "" then [] else [.text text]
      Block.ofSource source = .ok b ∧
      (Engine.ofConfig .default).evaluate b = (.ok text, Engine.ofConfig .default) ∧
      Document.ofBlock b = .ok ⟨text, []⟩) := by
  refine ⟨⟨?_, ?_⟩, ?_⟩
  · rintro ⟨b, h, hb⟩
    exact Block.unmarked_of_ofSource h hb
  · intro h
    exact ⟨_, Block.ofSource_of_unmarked h, Block.hasNoElement_ofText _⟩
  · intro h
    have hblock : Block.ofText (sourceChars source) =
        if String.ofList (sourceChars source) = "" then []
        else [.text (String.ofList (sourceChars source))] := by
      simp [Block.ofText]
    simp only [← hblock]
    exact ⟨Block.ofSource_of_unmarked h, Engine.evaluate_ofText rfl _, Document.ofBlock_ofText _⟩

/-- A byte order mark, a name without an argument, and a brace that opens none. -/
theorem Block.ofSource_unmarked_issue :
    let source := "\uFEFFissue #42 (\x7b)"
    let b : Block := [.text "issue #42 (\x7b)"]
    Unmarked (sourceChars source) ∧ Block.ofSource source = .ok b ∧
      (Engine.ofConfig .default).evaluate b =
        (.ok "issue #42 (\x7b)", Engine.ofConfig .default) ∧
      Document.ofBlock b = .ok ⟨"issue #42 (\x7b)", []⟩ := by
  intro source b
  have h : Unmarked (sourceChars source) := by decide +kernel
  have htext : String.ofList (sourceChars source) = "issue #42 (\x7b)" := by decide +kernel
  have hne : ("issue #42 (\x7b)" : String) ≠ "" := by decide +kernel
  have hall := (Block.ofSource_unmarked source).2 h
  simp only [htext, if_neg hne] at hall
  exact ⟨h, hall⟩

end BraceMarkup
