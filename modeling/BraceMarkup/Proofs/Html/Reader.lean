/-
  The HTML of a document is read back.

  The texts and values of an HTML document are escaped, the names in a
  document that was read hold no delimiters, and no two texts in it touch.  So
  the tree can be told from the characters.  The reader trims all texts: it
  takes the new lines of the longer mode for what they are, and does not ask
  for the mode.

  * `unescapeHtml`, `readHtmlAttributes?`, `readHtmlPieces?`: texts, attributes
    and pieces from their characters;
  * `HtmlNode.build?`: a tree from its pieces;
  * `readHtml?`: the tree that a whole text stands for;
  * `HtmlPiece.Readable`, `HtmlPiece.MayPrecede`: the pieces that are told
    apart;
  * `readHtmlPieces?_writeAll`, `HtmlNode.build?_pieces`: pieces and trees are
    read back;
  * `Block.readHtml?_toHtml`: **the HTML of a document is read back**, in
    either mode.
-/
import BraceMarkup.Proofs.Html.Tree

namespace BraceMarkup

/-! ## The reader -/

/-- The text that characters with references stand for. -/
def unescapeHtml : List Char → List Char
  | '&' :: 'l' :: 't' :: ';' :: cs => '<' :: unescapeHtml cs
  | '&' :: 'g' :: 't' :: ';' :: cs => '>' :: unescapeHtml cs
  | '&' :: 'a' :: 'm' :: 'p' :: ';' :: cs => '&' :: unescapeHtml cs
  | '&' :: '#' :: '3' :: '9' :: ';' :: cs => '\'' :: unescapeHtml cs
  | '&' :: '#' :: '3' :: '4' :: ';' :: cs => '"' :: unescapeHtml cs
  | c :: cs => c :: unescapeHtml cs
  | [] => []

/-- The characters up to the first `stop`, and those behind it. -/
def readUntil? (stop : Char) (cs : List Char) : Option (List Char × List Char) :=
  match cs.dropWhile (· != stop) with
  | [] => none
  | _ :: rest => some (cs.takeWhile (· != stop), rest)

/-- The attributes that characters stand for, each with a space before it.  Every attribute uses up
    some `fuel`. -/
def readHtmlAttributes? (fuel : Nat) (cs : List Char) : Option (List (String × String)) :=
  match fuel, cs with
  | _, [] => some []
  | fuel + 1, ' ' :: cs => do
    let (name, cs) ← readUntil? '=' cs
    let (_, cs) ← readUntil? '"' cs
    let (value, cs) ← readUntil? '"' cs
    let attributes ← readHtmlAttributes? fuel cs
    return (String.ofList name, String.ofList (unescapeHtml value)) :: attributes
  | _, _ => none

/-- The piece that the characters inside of a tag stand for. -/
def HtmlPiece.ofInside? (cs : List Char) : Option HtmlPiece :=
  if cs = "!DOCTYPE html".toList then some .declaration
  else if cs.head? = some '/' then some (.closing (String.ofList cs.tail))
  else do
    let attributes ← readHtmlAttributes? cs.length (cs.dropWhile (· != ' '))
    return .opening (String.ofList (cs.takeWhile (· != ' '))) attributes

/-- The text that the characters between two tags stand for; none if they are blank. -/
def HtmlPiece.ofText (cs : List Char) : List HtmlPiece :=
  let s := Text.trim (String.ofList (unescapeHtml cs))
  if s.isEmpty then [] else [.text s]

/-- The pieces that characters stand for.  Every tag, and what stands between two, uses up some
    `fuel`. -/
def readHtmlPieces? (fuel : Nat) (cs : List Char) : Option (List HtmlPiece) :=
  match fuel, cs with
  | _, [] => some []
  | 0, _ => none
  | fuel + 1, c :: cs =>
    if c = '<' then do
      let (inside, cs) ← readUntil? '>' cs
      return (← HtmlPiece.ofInside? inside) :: (← readHtmlPieces? fuel cs)
    else do
      let pieces ← readHtmlPieces? fuel (cs.dropWhile (· != '<'))
      return HtmlPiece.ofText (c :: cs.takeWhile (· != '<')) ++ pieces

/-- A tag that is not closed yet, with the nodes before it, last first. -/
structure OpenTag where
  tag : String
  attributes : List (String × String)
  before : List HtmlNode

/-- The nodes that pieces stand for.  `opened` are the tags that are not closed yet, innermost
    first, and `nodes` the nodes so far, last first. -/
def HtmlNode.build? (opened : List OpenTag) (nodes : List HtmlNode) :
    List HtmlPiece → Option (List HtmlNode)
  | [] => if opened.isEmpty then some nodes.reverse else none
  | .declaration :: _ => none
  | .text s :: pieces => build? opened (.text s :: nodes) pieces
  | .opening tag attributes :: pieces => build? (⟨tag, attributes, nodes⟩ :: opened) [] pieces
  | .closing tag :: pieces =>
    match opened with
    | [] => none
    | innermost :: outer =>
      if tag = innermost.tag then
        build? outer (.element tag innermost.attributes nodes.reverse :: innermost.before) pieces
      else none

/-- The nodes of the HTML document that a whole text stands for. -/
def readHtml? (text : String) : Option (List HtmlNode) := do
  match ← readHtmlPieces? text.toList.length text.toList with
  | .declaration :: pieces =>
    match ← HtmlNode.build? [] [] pieces with
    | [.element "html" [] nodes] => some nodes
    | _ => none
  | _ => none

/-! ## Trees from their pieces -/

mutual

/-- A node is built from its pieces. -/
theorem HtmlNode.build?_pieces : ∀ (node : HtmlNode) (opened : List OpenTag)
    (nodes : List HtmlNode) (pieces : List HtmlPiece),
      build? opened nodes (node.pieces ++ pieces) = build? opened (node :: nodes) pieces
  | .text s, opened, nodes, pieces => rfl
  | .element tag attributes body, opened, nodes, pieces => by
    rw [HtmlNode.pieces, List.cons_append, List.append_assoc, build?, HtmlNode.build?_piecesAll]
    simp [build?]

/-- Nodes are built from their pieces. -/
theorem HtmlNode.build?_piecesAll : ∀ (ns : List HtmlNode) (opened : List OpenTag)
    (nodes : List HtmlNode) (pieces : List HtmlPiece),
      build? opened nodes (piecesAll ns ++ pieces) = build? opened (ns.reverse ++ nodes) pieces
  | [], opened, nodes, pieces => rfl
  | node :: rest, opened, nodes, pieces => by
    rw [piecesAll, List.append_assoc, HtmlNode.build?_pieces, HtmlNode.build?_piecesAll,
      List.reverse_cons, List.append_assoc, List.singleton_append]

end

/-! ## Texts and attributes -/

theorem unescapeHtml_cons {c : Char} (h : c ≠ '&') (cs : List Char) :
    unescapeHtml (c :: cs) = c :: unescapeHtml cs := by
  rw [unescapeHtml.eq_def]
  split <;> simp_all

/-- Characters that begin no reference stand for themselves. -/
theorem unescapeHtml_append {before : List Char} (h : '&' ∉ before) (cs : List Char) :
    unescapeHtml (before ++ cs) = before ++ unescapeHtml cs := by
  induction before with
  | nil => rfl
  | cons c before ih =>
    obtain ⟨hc, hbefore⟩ := not_or.1 (mt List.mem_cons.2 h)
    rw [List.cons_append, unescapeHtml_cons (Ne.symm hc), ih hbefore, List.cons_append]

theorem unescapeHtml_escapeHtmlChar (c : Char) (cs : List Char) :
    unescapeHtml ((escapeHtmlChar c).toList ++ cs) = c :: unescapeHtml cs := by
  unfold escapeHtmlChar
  split
  · simp [unescapeHtml]
  · simp [unescapeHtml]
  · simp [unescapeHtml]
  · simp [unescapeHtml]
  · simp [unescapeHtml]
  · next hamp _ _ =>
    rw [Char.toString_eq_singleton, String.toList_singleton, List.singleton_append]
    exact unescapeHtml_cons hamp cs

theorem toList_escapeHtml (s : String) :
    (escapeHtml s).toList = s.toList.flatMap fun c => (escapeHtmlChar c).toList := by
  rw [escapeHtml, String.toList_join, List.flatMap_map]

/-- An escaped text stands for the text. -/
theorem unescapeHtml_escapeHtml (s : String) (cs : List Char) :
    unescapeHtml ((escapeHtml s).toList ++ cs) = s.toList ++ unescapeHtml cs := by
  rw [toList_escapeHtml]
  generalize s.toList = ds
  induction ds with
  | nil => rfl
  | cons d ds ih =>
    rw [List.flatMap_cons, List.append_assoc, unescapeHtml_escapeHtmlChar, ih, List.cons_append]

theorem escapeHtml_ne_nil {s : String} (h : s ≠ "") : (escapeHtml s).toList ≠ [] := by
  intro hnil
  have hread := unescapeHtml_escapeHtml s []
  rw [hnil] at hread
  exact h (by simpa [unescapeHtml] using hread.symm)

/-- Characters without a `stop` in front of nothing, or of the first one. -/
theorem takeWhile_dropWhile_append {stop : Char} {front rest : List Char} (h : stop ∉ front)
    (hrest : rest = [] ∨ ∃ cs, rest = stop :: cs) :
    (front ++ rest).takeWhile (· != stop) = front ∧
      (front ++ rest).dropWhile (· != stop) = rest := by
  have hfront : ∀ c ∈ front, (c != stop) = true := by
    intro c hc
    simpa using ne_of_mem_of_not_mem hc h
  rw [List.takeWhile_append_of_pos hfront, List.dropWhile_append_of_pos hfront]
  rcases hrest with rfl | ⟨cs, rfl⟩ <;> simp

theorem readUntil?_append {stop : Char} {front : List Char} (h : stop ∉ front) (rest : List Char) :
    readUntil? stop (front ++ stop :: rest) = some (front, rest) := by
  obtain ⟨htake, hdrop⟩ := takeWhile_dropWhile_append h (.inr ⟨rest, rfl⟩)
  rw [readUntil?, hdrop, htake]

theorem toList_writeHtmlAttribute (name value : String) :
    (writeHtmlAttribute (name, value)).toList =
      ' ' :: (name.toList ++ '=' :: ([] ++ '"' :: ((escapeHtml value).toList ++ ['"']))) := by
  simp [writeHtmlAttribute]

/-- Attributes are read back. -/
theorem readHtmlAttributes?_write {attributes : List (String × String)}
    (h : ∀ a ∈ attributes, '=' ∉ a.1.toList) {fuel : Nat} (hfuel : attributes.length ≤ fuel) :
    readHtmlAttributes? fuel (attributes.flatMap fun a => (writeHtmlAttribute a).toList) =
      some attributes := by
  induction attributes generalizing fuel with
  | nil => cases fuel <;> rfl
  | cons a attributes ih =>
    obtain ⟨name, value⟩ := a
    cases fuel with
    | zero => exact absurd hfuel (by simp)
    | succ fuel =>
      have hname : '=' ∉ name.toList := h (name, value) (List.mem_cons_self ..)
      have hquote : '"' ∉ (escapeHtml value).toList :=
        fun hc => (inert_escapeHtml value _ hc).2.2 rfl
      have hvalue := unescapeHtml_escapeHtml value []
      have hrest := ih (fun a ha => h a (List.mem_cons_of_mem _ ha)) (Nat.le_of_succ_le_succ hfuel)
      rw [List.flatMap_cons, toList_writeHtmlAttribute]
      simp only [List.cons_append, List.append_assoc]
      rw [readHtmlAttributes?, readUntil?_append hname]
      simp only [Option.bind_eq_bind, Option.bind_some]
      rw [readUntil?_append List.not_mem_nil]
      simp only [Option.bind_some]
      rw [List.nil_append, readUntil?_append hquote]
      simp only [Option.bind_some]
      rw [hrest]
      simp only [List.append_nil, unescapeHtml] at hvalue
      rw [hvalue]
      simp

/-! ## Pieces -/

/-- A text. -/
def HtmlPiece.IsText : HtmlPiece → Prop
  | text _ => True
  | _ => False

/-- What may stand right behind a piece: no text behind a text. -/
def HtmlPiece.MayPrecede (piece next : HtmlPiece) : Prop := piece.IsText → ¬ next.IsText

/-- A piece that is told from its characters: its tag is one of the list, the names of its
    attributes are proper, and its text is trimmed. -/
def HtmlPiece.Readable : HtmlPiece → Prop
  | declaration => True
  | opening tag attributes => tag ∈ "html" :: htmlTags ∧
    ∀ a ∈ attributes, ∀ c ∈ a.1.toList, isNameChar c = true
  | closing tag => tag ∈ "html" :: htmlTags
  | text s => s ≠ "" ∧ Text.trim s = s

/-- The characters of a tag's name. -/
theorem htmlTags_chars : ∀ tag ∈ "html" :: htmlTags, ' ' ∉ tag.toList ∧ '>' ∉ tag.toList ∧
    tag.toList.head? ≠ some '!' ∧ tag.toList.head? ≠ some '/' ∧ tag.toList ≠ [] := by
  decide

theorem not_mem_of_isNameChar {s : String} (h : ∀ c ∈ s.toList, isNameChar c = true) {c : Char}
    (hc : isNameChar c = false) : c ∉ s.toList :=
  fun hm => by simp [h c hm] at hc

theorem gt_not_mem_writeHtmlAttribute {a : String × String}
    (h : ∀ c ∈ a.1.toList, isNameChar c = true) : '>' ∉ (writeHtmlAttribute a).toList := by
  have hname : '>' ∉ a.1.toList := not_mem_of_isNameChar h (by decide)
  have hvalue : '>' ∉ (escapeHtml a.2).toList := fun hc => (inert_escapeHtml a.2 _ hc).2.1 rfl
  rw [toList_writeHtmlAttribute a.1 a.2]
  simp [hname, hvalue]

theorem length_le_writeHtmlAttributes (attributes : List (String × String)) :
    attributes.length ≤ (attributes.flatMap fun a => (writeHtmlAttribute a).toList).length := by
  induction attributes with
  | nil => exact Nat.le_refl 0
  | cons a attributes ih =>
    rw [List.flatMap_cons, toList_writeHtmlAttribute a.1 a.2]
    simp only [List.cons_append, List.length_cons, List.length_append]
    omega

/-- A tag is told from the characters between its delimiters. -/
theorem HtmlPiece.exists_inside {piece : HtmlPiece} (hp : piece.Readable) (ht : ¬ piece.IsText)
    (newline : String) : ∃ inside, (piece.write newline).toList =
      '<' :: (inside ++ '>' :: newline.toList) ∧ '>' ∉ inside ∧ ofInside? inside = some piece := by
  cases piece with
  | text s => exact absurd trivial ht
  | declaration =>
    exact ⟨"!DOCTYPE html".toList, by simp [HtmlPiece.write], by decide, rfl⟩
  | closing tag =>
    obtain ⟨-, hclose, -⟩ := htmlTags_chars tag hp
    refine ⟨'/' :: tag.toList, by simp [HtmlPiece.write], ?_, ?_⟩
    · simpa using hclose
    · rw [ofInside?, if_neg (by simp), if_pos List.head?_cons, List.tail_cons, String.ofList_toList]
  | opening tag attributes =>
    obtain ⟨htag, hnames⟩ := hp
    obtain ⟨hspace, hclose, hbang, hslash, hne⟩ := htmlTags_chars tag htag
    let written := attributes.flatMap fun a => (writeHtmlAttribute a).toList
    have hwritten : written = [] ∨ ∃ cs, written = ' ' :: cs := by
      cases attributes with
      | nil => exact .inl rfl
      | cons a rest => exact .inr ⟨_, by simp only [written, List.flatMap_cons,
          toList_writeHtmlAttribute a.1 a.2, List.cons_append]; rfl⟩
    have hlength : attributes.length ≤ (tag.toList ++ written).length := by
      rw [List.length_append]
      exact Nat.le_add_left_of_le (length_le_writeHtmlAttributes attributes)
    have hread := readHtmlAttributes?_write
      (fun a ha => not_mem_of_isNameChar (hnames a ha) (by decide)) hlength
    obtain ⟨htake, hdrop⟩ := takeWhile_dropWhile_append hspace hwritten
    refine ⟨tag.toList ++ written, ?_, ?_, ?_⟩
    · simp [HtmlPiece.write, written, String.toList_join, List.flatMap_map]
    · rw [List.mem_append, not_or]
      refine ⟨hclose, fun hm => ?_⟩
      obtain ⟨a, ha, hm⟩ := List.mem_flatMap.1 hm
      exact gt_not_mem_writeHtmlAttribute (hnames a ha) hm
    · rw [ofInside?, if_neg, if_neg, hdrop, htake, hread]
      · simp
      · rwa [List.head?_append_of_ne_nil _ hne]
      · intro h
        have hhead := congrArg List.head? h
        rw [List.head?_append_of_ne_nil _ hne] at hhead
        exact hbang hhead

section
variable {fuel : Nat} {rest : List Char}

theorem readHtmlPieces?_nil : readHtmlPieces? fuel [] = some [] := by
  cases fuel <;> rfl

theorem readHtmlPieces?_tag {inside : List Char} {piece : HtmlPiece} (h : '>' ∉ inside)
    (hp : HtmlPiece.ofInside? inside = some piece) :
    readHtmlPieces? (fuel + 1) ('<' :: (inside ++ '>' :: rest)) =
      (readHtmlPieces? fuel rest).map (piece :: ·) := by
  rw [readHtmlPieces?, if_pos rfl, readUntil?_append h]
  simp only [Option.bind_eq_bind, Option.bind_some, hp]
  cases readHtmlPieces? fuel rest <;> rfl

theorem readHtmlPieces?_text {front : List Char} (hne : front ≠ []) (h : '<' ∉ front)
    (hrest : rest = [] ∨ ∃ cs, rest = '<' :: cs) :
    readHtmlPieces? (fuel + 1) (front ++ rest) =
      (readHtmlPieces? fuel rest).map (HtmlPiece.ofText front ++ ·) := by
  cases front with
  | nil => exact absurd rfl hne
  | cons c front =>
    obtain ⟨hc, hfront⟩ := not_or.1 (mt List.mem_cons.2 h)
    obtain ⟨htake, hdrop⟩ := takeWhile_dropWhile_append hfront hrest
    rw [List.cons_append, readHtmlPieces?, if_neg (Ne.symm hc), htake, hdrop]
    cases readHtmlPieces? fuel rest <;> rfl

end

/-! ## New lines -/

/-- Characters that are new lines, if there are any. -/
def NewLines (cs : List Char) : Prop := ∀ c ∈ cs, c = '\n'

theorem NewLines.nil : NewLines [] := by simp [NewLines]

theorem NewLines.not_mem {blanks : List Char} (h : NewLines blanks) {c : Char} (hc : c ≠ '\n') :
    c ∉ blanks := fun hm => hc (h c hm)

theorem NewLines.isBlank {blanks : List Char} (h : NewLines blanks) :
    ∀ c ∈ blanks, Text.isBlank c = true := by
  intro c hc
  rw [h c hc]
  rfl

theorem NewLines.unescape {blanks : List Char} (h : NewLines blanks) :
    unescapeHtml blanks = blanks := by
  have hread := unescapeHtml_append (h.not_mem (by decide)) []
  rwa [List.append_nil, unescapeHtml, List.append_nil] at hread

/-- New lines stand for no text. -/
theorem HtmlPiece.ofText_newLines {blanks : List Char} (h : NewLines blanks) :
    ofText blanks = [] := by
  rw [ofText, h.unescape, Text.trim, Text.trimWith, String.toList_ofList,
    Text.trimListWith_of_all (List.all_eq_true.2 h.isBlank)]
  rfl

/-- A trimmed text is told from its characters, with new lines around it. -/
theorem HtmlPiece.ofText_escapeHtml {s : String} {blanks newline : List Char}
    (hp : (text s).Readable) (hb : NewLines blanks) (hn : NewLines newline) :
    ofText (blanks ++ ((escapeHtml s).toList ++ newline)) = [.text s] := by
  obtain ⟨hne, htrim⟩ := hp
  have hread : Text.trim (String.ofList (unescapeHtml (blanks ++ ((escapeHtml s).toList ++
      newline)))) = s := by
    rw [unescapeHtml_append (hb.not_mem (by decide)), unescapeHtml_escapeHtml, hn.unescape,
      Text.trim, Text.trimWith, String.toList_ofList,
      Text.trimListWith_append hb.isBlank hn.isBlank]
    exact htrim
  rw [ofText, hread, if_neg (by simpa using hne)]

/-- New lines in front of a tag, or of the end, are passed over. -/
theorem readHtmlPieces?_newLines {blanks rest : List Char} (hb : NewLines blanks)
    (hrest : rest = [] ∨ ∃ cs, rest = '<' :: cs) {fuel : Nat}
    (hfuel : (blanks ++ rest).length ≤ fuel) :
    ∃ left, rest.length ≤ left ∧
      readHtmlPieces? fuel (blanks ++ rest) = readHtmlPieces? left rest := by
  cases blanks with
  | nil => exact ⟨fuel, hfuel, rfl⟩
  | cons c blanks =>
    cases fuel with
    | zero => exact absurd hfuel (by simp)
    | succ fuel =>
      refine ⟨fuel, ?_, ?_⟩
      · simp only [List.cons_append, List.length_cons, List.length_append] at hfuel
        omega
      · rw [readHtmlPieces?_text (List.cons_ne_nil _ _) (hb.not_mem (by decide)) hrest,
          HtmlPiece.ofText_newLines hb]
        cases readHtmlPieces? fuel rest <;> rfl

/-! ## Written pieces -/

/-- What stands behind a text begins with a tag, if anything does. -/
theorem HtmlPiece.writeAll_behind_text (newline : String) {piece : HtmlPiece}
    {pieces : List HtmlPiece} (ht : piece.IsText) (hp : ∀ p ∈ pieces, p.Readable)
    (hchain : (piece :: pieces).IsChain MayPrecede) :
    (writeAll newline pieces).toList = [] ∨ ∃ cs, (writeAll newline pieces).toList = '<' :: cs := by
  cases pieces with
  | nil => exact .inl rfl
  | cons next pieces =>
    have hnext : ¬ next.IsText := (List.isChain_cons_cons.1 hchain).1 ht
    obtain ⟨inside, hinside, -⟩ := exists_inside (hp next (List.mem_cons_self ..)) hnext newline
    exact .inr ⟨_, by rw [writeAll_cons, String.toList_append, hinside, List.cons_append]⟩

/-- **Pieces are read back**, with new lines in front of them and behind every piece. -/
theorem readHtmlPieces?_writeAll {newline : String} (hn : NewLines newline.toList)
    {pieces : List HtmlPiece} (hp : ∀ p ∈ pieces, p.Readable)
    (hchain : pieces.IsChain HtmlPiece.MayPrecede) {blanks : List Char}
    (hb : NewLines blanks) {fuel : Nat}
    (hfuel : (blanks ++ (HtmlPiece.writeAll newline pieces).toList).length ≤ fuel) :
    readHtmlPieces? fuel (blanks ++ (HtmlPiece.writeAll newline pieces).toList) = some pieces := by
  induction pieces generalizing blanks fuel with
  | nil =>
    obtain ⟨left, -, hread⟩ := readHtmlPieces?_newLines hb (.inl rfl) hfuel
    exact hread.trans readHtmlPieces?_nil
  | cons piece pieces ih =>
    have hpiece := hp piece (List.mem_cons_self ..)
    have hrest := fun p hm => hp p (List.mem_cons_of_mem piece hm)
    rw [HtmlPiece.writeAll_cons, String.toList_append] at hfuel ⊢
    by_cases ht : piece.IsText
    · have hbehind := HtmlPiece.writeAll_behind_text newline ht hrest hchain
      cases piece with
      | declaration | opening | closing => exact absurd ht id
      | text s =>
        have hne : (escapeHtml s).toList ≠ [] := escapeHtml_ne_nil hpiece.1
        have hlt : '<' ∉ blanks ++ ((escapeHtml s).toList ++ newline.toList) := by
          simp only [List.mem_append, not_or]
          exact ⟨hb.not_mem (by decide), fun hc => (inert_escapeHtml s _ hc).1 rfl,
            hn.not_mem (by decide)⟩
        rw [HtmlPiece.write, String.toList_append, ← List.append_assoc] at hfuel ⊢
        cases fuel with
        | zero => exact absurd hfuel (by simp [hne])
        | succ fuel =>
          have htail : readHtmlPieces? fuel ([] ++ (HtmlPiece.writeAll newline pieces).toList) =
              some pieces := by
            refine ih hrest hchain.tail .nil ?_
            have hpos := List.length_pos_iff.2 hne
            simp only [List.length_append, List.nil_append] at hfuel ⊢
            omega
          rw [readHtmlPieces?_text (by simp [hne]) hlt hbehind,
            HtmlPiece.ofText_escapeHtml hpiece hb hn]
          rw [List.nil_append] at htail
          rw [htail]
          rfl
    · obtain ⟨inside, hinside, hclose, hof⟩ := HtmlPiece.exists_inside hpiece ht newline
      rw [hinside, List.cons_append, List.append_assoc, List.cons_append] at hfuel ⊢
      obtain ⟨left, hleft, hread⟩ := readHtmlPieces?_newLines hb (.inr ⟨_, rfl⟩) hfuel
      simp only [List.length_cons, List.length_append] at hleft
      cases left with
      | zero => exact absurd hleft (by simp)
      | succ left =>
        have htail : readHtmlPieces? left (newline.toList ++
            (HtmlPiece.writeAll newline pieces).toList) = some pieces :=
          ih hrest hchain.tail hn (by rw [List.length_append]; omega)
        rw [hread, readHtmlPieces?_tag hclose hof, htail]
        rfl

/-! ## Documents that were read -/

/-- A tag keeps the texts of its body from those around it. -/
theorem HtmlNode.isChain_element {tag : String} {attributes : List (String × String)}
    {body rest : List HtmlNode} (hbody : (piecesAll body).IsChain HtmlPiece.MayPrecede)
    (hrest : (piecesAll rest).IsChain HtmlPiece.MayPrecede) :
    (piecesAll (.element tag attributes body :: rest)).IsChain HtmlPiece.MayPrecede := by
  have hclosing : (HtmlPiece.closing tag :: piecesAll rest).IsChain HtmlPiece.MayPrecede :=
    hrest.cons fun _ _ h => absurd h id
  have hinside : (piecesAll body ++ (HtmlPiece.closing tag :: piecesAll rest)).IsChain
      HtmlPiece.MayPrecede := by
    refine hbody.append hclosing ?_
    intro piece _ next hnext _ ht
    obtain rfl := Option.some.inj hnext
    exact ht
  rw [piecesAll, pieces, List.cons_append, List.append_assoc, List.singleton_append]
  exact hinside.cons fun _ _ h => absurd h id

/-- Nodes that do not begin with a text do not do so in HTML. -/
theorem Block.IsHtml.head?_piecesAll {b : Block} {tree : List HtmlNode} (h : Block.IsHtml b tree)
    (hb : ∀ s, b.head? ≠ some (.text s)) :
    ∀ piece ∈ (HtmlNode.piecesAll tree).head?, ¬ piece.IsText := by
  cases h with
  | nil => simp [HtmlNode.piecesAll]
  | blank | text => exact absurd rfl (hb _)
  | element =>
    intro piece hp ht
    obtain rfl := Option.some.inj hp
    exact ht

/-- In the tree of a block whose nodes stay apart, no two texts touch. -/
theorem Block.IsHtml.isChain {b : Block} {tree : List HtmlNode} (h : Block.IsHtml b tree)
    (hw : Block.Writable b) : (HtmlNode.piecesAll tree).IsChain HtmlPiece.MayPrecede := by
  induction h with
  | nil => exact .nil
  | blank _ _ ih => exact ih hw.2.2
  | text _ hrest ih =>
    obtain ⟨-, hfirst, hw⟩ := hw
    refine (ih hw).cons ?_
    intro next hnext _
    exact hrest.head?_piecesAll (Node.MayPrecede.ne_text hfirst) next hnext
  | element _ harguments _ _ ihBody ih =>
    obtain ⟨⟨-, -, hblocks⟩, -, hw⟩ := hw
    exact HtmlNode.isChain_element (ihBody (harguments.writable hblocks).1) (ih hw)

/-- The texts of a tree are trimmed, and not empty. -/
theorem Block.IsHtml.trimmed {b : Block} {tree : List HtmlNode} (h : Block.IsHtml b tree)
    {t : String} (ht : HtmlPiece.text t ∈ HtmlNode.piecesAll tree) :
    t ≠ "" ∧ Text.trim t = t := by
  induction h with
  | nil => simp [HtmlNode.piecesAll] at ht
  | blank _ _ ih => exact ih ht
  | @text s rest ns hs _ ih =>
    rcases List.mem_cons.1 ht with heq | ht
    · obtain rfl := HtmlPiece.text.inj heq
      exact ⟨hs, Text.trim_trim s⟩
    · exact ih ht
  | element _ _ _ _ ihBody ih =>
    simp only [HtmlNode.piecesAll, HtmlNode.pieces, List.mem_append, List.mem_cons, reduceCtorEq,
      List.not_mem_nil, or_false, false_or] at ht
    rcases ht with ht | ht
    · exact ihBody ht
    · exact ih ht

/-- The pieces of a tree are told apart. -/
theorem Block.IsHtml.readable {b : Block} {tree : List HtmlNode} (h : Block.IsHtml b tree)
    (hw : Block.Writable b) : ∀ piece ∈ HtmlNode.piecesAll tree, piece.Readable := by
  intro piece hp
  have hsealed := h.sealed piece hp
  have hnames := h.names hw piece hp
  cases piece with
  | declaration => trivial
  | opening tag attributes =>
    exact ⟨hsealed.1, fun a ha => hnames a.1 (List.mem_map_of_mem ha)⟩
  | closing tag => exact hsealed
  | text t => exact h.trimmed hp

/-- The document of a tree is read back. -/
theorem Block.IsHtml.readHtml?_document {b : Block} {tree : List HtmlNode} (h : Block.IsHtml b tree)
    (hw : Block.Writable b) (inline : Bool) :
    readHtml? (HtmlPiece.writeAll (htmlNewline inline) (HtmlNode.document tree)) =
      some tree := by
  have hnewline : NewLines (htmlNewline inline).toList := by
    cases inline <;> simp [htmlNewline, NewLines]
  have hreadable : ∀ piece ∈ HtmlNode.document tree, piece.Readable := by
    intro piece hp
    simp only [HtmlNode.document, HtmlNode.pieces, List.mem_cons, List.mem_append,
      List.not_mem_nil, or_false] at hp
    rcases hp with rfl | rfl | hp | rfl
    · trivial
    · exact ⟨List.mem_cons_self .., by simp⟩
    · exact h.readable hw piece hp
    · exact List.mem_cons_self ..
  have hchain : (HtmlNode.document tree).IsChain HtmlPiece.MayPrecede := by
    have helement : (HtmlNode.piecesAll [.element "html" [] tree]).IsChain
        HtmlPiece.MayPrecede := HtmlNode.isChain_element (h.isChain hw) .nil
    rw [HtmlNode.piecesAll, HtmlNode.piecesAll, List.append_nil] at helement
    exact helement.cons fun _ _ ht => absurd ht id
  have hpieces : readHtmlPieces? _ ([] ++ (HtmlPiece.writeAll (htmlNewline inline)
      (HtmlNode.document tree)).toList) = some (HtmlNode.document tree) :=
    readHtmlPieces?_writeAll hnewline hreadable hchain .nil (Nat.le_refl _)
  have hbuild : HtmlNode.build? [] [] ((HtmlNode.element "html" [] tree).pieces ++ []) =
      some [.element "html" [] tree] := HtmlNode.build?_pieces (.element "html" [] tree) [] [] []
  rw [List.nil_append] at hpieces
  rw [List.append_nil] at hbuild
  rw [readHtml?, hpieces, HtmlNode.document]
  simp [hbuild]

/-! ## Both modes -/

/-- **The HTML of a document is read back.**  Both modes refuse the same blocks for the same
    reason.  What is written of a block that was read from a text is read back, in either mode, as
    the tree of the block; so documents whose HTML is the same in one mode have the same tree. -/
theorem Block.readHtml?_toHtml :
    (∀ b : Block, (b.toHtml true).map (fun _ => ()) = (b.toHtml false).map (fun _ => ())) ∧
    (∀ (source : String) (b : Block), Block.ofSource source = .ok b →
      ∀ (inline : Bool) (out : String), b.toHtml inline = .ok out →
        ∃ tree, Block.htmlTree b = .ok tree ∧ readHtml? out = some tree) ∧
    ∀ (source source' : String) (b b' : Block), Block.ofSource source = .ok b →
      Block.ofSource source' = .ok b' → ∀ (inline : Bool) (out : String),
        b.toHtml inline = .ok out → b'.toHtml inline = .ok out →
          Block.htmlTree b = Block.htmlTree b' := by
  have hread : ∀ (source : String) (b : Block), Block.ofSource source = .ok b →
      ∀ (inline : Bool) (out : String), b.toHtml inline = .ok out →
        ∃ tree, Block.htmlTree b = .ok tree ∧ readHtml? out = some tree := by
    intro source b hsource inline out hout
    rw [Block.toHtml_eq] at hout
    cases htree : Block.htmlTree b with
    | error e =>
      rw [htree] at hout
      cases hout
    | ok tree =>
      rw [htree] at hout
      obtain rfl := Except.ok.inj hout
      exact ⟨tree, rfl, (Block.isHtml_of_htmlTree b htree).readHtml?_document
        (Block.writable_of_ofSource hsource) inline⟩
  refine ⟨?_, hread, ?_⟩
  · intro b
    rw [Block.toHtml_eq, Block.toHtml_eq]
    cases Block.htmlTree b <;> rfl
  · intro source source' b b' hsource hsource' inline out hout hout'
    obtain ⟨tree, htree, hback⟩ := hread source b hsource inline out hout
    obtain ⟨tree', htree', hback'⟩ := hread source' b' hsource' inline out hout'
    rw [htree, htree', Option.some.inj (hback.symm.trans hback')]

/-- A document with an attribute and a text that are escaped, in both modes. -/
theorem Block.readHtml?_toHtml_quoted :
    ∃ b out out' tree, Block.ofSource "#html.p\x7b#id\x7b<>\x7d\x7d\x7b & \x7d" = .ok b ∧
      b.toHtml true = .ok out ∧ out = "<!DOCTYPE html><html><p id=\"&lt;&gt;\">&amp;</p></html>" ∧
      b.toHtml false = .ok out' ∧ out' ≠ out ∧
      readHtml? out = some tree ∧ readHtml? out' = some tree := by
  have hsource : Block.ofSource "#html.p\x7b#id\x7b<>\x7d\x7d\x7b & \x7d" =
      .ok [.element "html.p" [[.element "id" [[.text "<>"]]], [.text "&"]]] := by
    decide +kernel
  have hshort :
      Block.toHtml true [.element "html.p" [[.element "id" [[.text "<>"]]], [.text "&"]]] =
        .ok "<!DOCTYPE html><html><p id=\"&lt;&gt;\">&amp;</p></html>" := by decide +kernel
  have hlong :
      Block.toHtml false [.element "html.p" [[.element "id" [[.text "<>"]]], [.text "&"]]] =
        .ok "<!DOCTYPE html>\n<html>\n<p id=\"&lt;&gt;\">\n&amp;\n</p>\n</html>\n" := by
    decide +kernel
  obtain ⟨tree, htree, hread⟩ := Block.readHtml?_toHtml.2.1 _ _ hsource true _ hshort
  obtain ⟨tree', htree', hread'⟩ := Block.readHtml?_toHtml.2.1 _ _ hsource false _ hlong
  obtain rfl := Except.ok.inj (htree.symm.trans htree')
  exact ⟨_, _, _, tree, hsource, hshort, rfl, hlong, by decide, hread, hread'⟩

end BraceMarkup
