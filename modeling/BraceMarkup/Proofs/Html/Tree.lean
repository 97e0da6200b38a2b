/-
  The HTML document of a block as a tree.

  A document is written piece by piece: tags with their attributes, and texts.
  The pieces are those of a tree, in its order, so that every tag that is
  opened is closed.  Nothing but the name of an attribute is written as it
  stands in the block: a tag is one of a list, and texts and values are escaped.

  * `HtmlNode`, `Block.htmlTree`: the trees, and the tree of a block;
  * `HtmlPiece`, `HtmlNode.document`: the pieces of a document;
  * `Block.toHtml_eq`: a block is written as the pieces of its tree;
  * `HtmlPiece.Sealed`: a piece whose delimiters are its own, those in the
    names of its attributes apart;
  * `Block.toHtml_sealed`: **only the name of an attribute can hold a
    delimiter**, and not in a document that was read.
-/
import BraceMarkup.Html
import BraceMarkup.Proofs.Source.Shape
import Mathlib.Control.Monad.Basic

namespace BraceMarkup

/-! ## Trees -/

/-- A node of an HTML document: a text, or a tag with its attributes and its body. -/
inductive HtmlNode where
  | text (content : String)
  | element (tag : String) (attributes : List (String × String)) (body : List HtmlNode)
  deriving Repr

/-- The attributes that the elements of a block stand for: each has the text of its first argument
    as its value, or none. -/
def Block.attributes (b : Block) : List (String × String) :=
  b.elements.map fun (name, arguments) =>
    (name, (arguments.head?.map Block.textContent).getD "")

mutual

/-- What a node is in HTML: nothing if it is a blank text. -/
def Node.htmlTree : Node → Except HtmlError (List HtmlNode)
  | .text s => .ok (if (Text.trim s).isEmpty then [] else [.text (Text.trim s)])
  | .element name arguments =>
    match htmlTag? name, arguments with
    | none, _ => .error (.unknownElement name)
    | some tag, [body] => do return [.element tag [] (← Block.htmlTree body)]
    | some tag, [attributes, body] => do
      return [.element tag (Block.attributes attributes) (← Block.htmlTree body)]
    | some _, arguments => .error (.wrongArity name arguments.length)

/-- What the nodes of a block are in HTML. -/
def Block.htmlTree : Block → Except HtmlError (List HtmlNode)
  | [] => .ok []
  | node :: rest => do
    let nodes ← node.htmlTree
    return nodes ++ (← Block.htmlTree rest)

end

/-- The arguments of a tag: a body, or attributes and a body. -/
inductive HtmlArguments : List Block → List (String × String) → Block → Prop
  | body {body} : HtmlArguments [body] [] body
  | attributes {block body} : HtmlArguments [block, body] (Block.attributes block) body

/-- The nodes that a block stands for in HTML, one rule for each thing that may stand in front. -/
inductive Block.IsHtml : Block → List HtmlNode → Prop
  | nil : IsHtml [] []
  | blank {s rest ns} : Text.trim s = "" → IsHtml rest ns → IsHtml (.text s :: rest) ns
  | text {s rest ns} : Text.trim s ≠ "" → IsHtml rest ns →
      IsHtml (.text s :: rest) (.text (Text.trim s) :: ns)
  | element {name tag arguments attributes body inside rest ns} : htmlTag? name = some tag →
      HtmlArguments arguments attributes body → IsHtml body inside → IsHtml rest ns →
      IsHtml (.element name arguments :: rest) (.element tag attributes inside :: ns)

theorem Block.htmlTree_cons_eq_ok {node : Node} {rest : Block} {tree : List HtmlNode}
    (h : Block.htmlTree (node :: rest) = .ok tree) :
    ∃ ms ns, node.htmlTree = .ok ms ∧ Block.htmlTree rest = .ok ns ∧ tree = ms ++ ns := by
  rw [Block.htmlTree] at h
  obtain ⟨ms, hms, h⟩ := bind_eq_ok_iff.1 h
  obtain ⟨ns, hns, h⟩ := bind_eq_ok_iff.1 h
  exact ⟨ms, ns, hms, hns, (Except.ok.inj h).symm⟩

/-- An element that is written has a known name and the arguments of a tag. -/
theorem Node.htmlTree_element_eq_ok {name : String} {arguments : List Block} {ms : List HtmlNode}
    (h : (Node.element name arguments).htmlTree = .ok ms) :
    ∃ tag attributes body inside, htmlTag? name = some tag ∧
      HtmlArguments arguments attributes body ∧ Block.htmlTree body = .ok inside ∧
      ms = [.element tag attributes inside] := by
  unfold Node.htmlTree at h
  cases htag : htmlTag? name with
  | none =>
    rw [htag] at h
    cases h
  | some tag =>
    rw [htag] at h
    match arguments with
    | [] => cases h
    | [body] =>
      obtain ⟨inside, hbody, h⟩ := bind_eq_ok_iff.1 h
      exact ⟨tag, [], body, inside, rfl, .body, hbody, (Except.ok.inj h).symm⟩
    | [block, body] =>
      obtain ⟨inside, hbody, h⟩ := bind_eq_ok_iff.1 h
      exact ⟨tag, _, body, inside, rfl, .attributes, hbody, (Except.ok.inj h).symm⟩
    | _ :: _ :: _ :: _ => cases h

theorem HtmlArguments.mem {arguments : List Block} {attributes : List (String × String)}
    {body : Block} (h : HtmlArguments arguments attributes body) : body ∈ arguments := by
  cases h <;> simp

mutual

/-- The tree of a node in front of others follows the rules. -/
theorem Node.isHtml_of_htmlTree : ∀ (node : Node) {ms : List HtmlNode}, node.htmlTree = .ok ms →
    ∀ {rest : Block} {ns : List HtmlNode}, Block.IsHtml rest ns →
      Block.IsHtml (node :: rest) (ms ++ ns)
  | .text s, ms, h, rest, ns, hrest => by
    unfold Node.htmlTree at h
    by_cases hs : Text.trim s = ""
    · obtain rfl : [] = ms := by simpa [hs] using h
      exact .blank hs hrest
    · obtain rfl : [.text (Text.trim s)] = ms := by simpa [hs] using h
      exact .text hs hrest
  | .element name arguments, ms, h, rest, ns, hrest => by
    obtain ⟨tag, attributes, body, inside, htag, harguments, hbody, rfl⟩ :=
      Node.htmlTree_element_eq_ok h
    exact .element htag harguments (Node.isHtml_of_mem arguments body harguments.mem hbody) hrest

/-- The tree of a block follows the rules. -/
theorem Block.isHtml_of_htmlTree : ∀ (b : Block) {tree : List HtmlNode},
    Block.htmlTree b = .ok tree → Block.IsHtml b tree
  | [], tree, h => by
    cases h
    exact .nil
  | node :: rest, tree, h => by
    obtain ⟨ms, ns, hms, hns, rfl⟩ := Block.htmlTree_cons_eq_ok h
    exact Node.isHtml_of_htmlTree node hms (Block.isHtml_of_htmlTree rest hns)

/-- The tree of an argument follows the rules. -/
theorem Node.isHtml_of_mem : ∀ (arguments : List Block) (body : Block), body ∈ arguments →
    ∀ {tree : List HtmlNode}, Block.htmlTree body = .ok tree → Block.IsHtml body tree
  | block :: rest, body, hmem, tree, h => by
    by_cases heq : body = block
    · rw [heq] at h ⊢
      exact Block.isHtml_of_htmlTree block h
    · exact Node.isHtml_of_mem rest body ((List.mem_cons.1 hmem).resolve_left heq) h

end

/-! ## Pieces -/

/-- A tag or a text of an HTML document. -/
inductive HtmlPiece where
  | declaration
  | opening (tag : String) (attributes : List (String × String))
  | closing (tag : String)
  | text (content : String)
  deriving Repr, DecidableEq

/-- An attribute, with a space before it. -/
def writeHtmlAttribute : String × String → String
  | (name, value) => " " ++ name ++ "=\"" ++ escapeHtml value ++ "\""

/-- A piece as it is written, with what stands behind every piece. -/
def HtmlPiece.write (newline : String) : HtmlPiece → String
  | declaration => "<!DOCTYPE html>" ++ newline
  | opening tag attributes =>
    "<" ++ tag ++ String.join (attributes.map writeHtmlAttribute) ++ ">" ++ newline
  | closing tag => "</" ++ tag ++ ">" ++ newline
  | text s => escapeHtml s ++ newline

/-- Pieces one behind the other. -/
def HtmlPiece.writeAll (newline : String) (pieces : List HtmlPiece) : String :=
  String.join (pieces.map (HtmlPiece.write newline))

@[simp] theorem HtmlPiece.writeAll_nil (newline : String) : writeAll newline [] = "" := rfl

@[simp] theorem HtmlPiece.writeAll_cons (newline : String) (piece : HtmlPiece)
    (pieces : List HtmlPiece) :
    writeAll newline (piece :: pieces) = piece.write newline ++ writeAll newline pieces := by
  simp [writeAll, String.join_cons]

@[simp] theorem HtmlPiece.writeAll_append (newline : String) (ps qs : List HtmlPiece) :
    writeAll newline (ps ++ qs) = writeAll newline ps ++ writeAll newline qs := by
  simp [writeAll, String.join_append]

mutual

/-- The pieces of a node: the body of a tag stands between its opening and its closing. -/
def HtmlNode.pieces : HtmlNode → List HtmlPiece
  | .text s => [.text s]
  | .element tag attributes body =>
    .opening tag attributes :: (HtmlNode.piecesAll body ++ [.closing tag])

/-- The pieces of some nodes, one behind the other. -/
def HtmlNode.piecesAll : List HtmlNode → List HtmlPiece
  | [] => []
  | node :: rest => node.pieces ++ HtmlNode.piecesAll rest

end

@[simp] theorem HtmlNode.piecesAll_append (ns ms : List HtmlNode) :
    piecesAll (ns ++ ms) = piecesAll ns ++ piecesAll ms := by
  induction ns with
  | nil => rfl
  | cons n ns ih => simp [piecesAll, ih]

/-- The pieces of a document: the declaration, and the tag `html` around some nodes. -/
def HtmlNode.document (nodes : List HtmlNode) : List HtmlPiece :=
  .declaration :: (HtmlNode.element "html" [] nodes).pieces

/-! ## The pieces of a block -/

theorem htmlAttributes_eq (b : Block) :
    htmlAttributes b = String.join ((Block.attributes b).map writeHtmlAttribute) := by
  rw [htmlAttributes, Block.attributes, List.map_map]
  rfl

theorem htmlTagged_eq (newline tag : String) (attributes : List (String × String))
    (body : List HtmlNode) :
    htmlTagged newline tag (String.join (attributes.map writeHtmlAttribute))
        (HtmlPiece.writeAll newline (HtmlNode.piecesAll body)) =
      HtmlPiece.writeAll newline (HtmlNode.piecesAll [.element tag attributes body]) := by
  simp [htmlTagged, HtmlNode.piecesAll, HtmlNode.pieces, HtmlPiece.write, String.append_assoc]

mutual

/-- A node is written as the pieces of its tree. -/
theorem Node.toHtml_eq (newline : String) : ∀ node : Node, node.toHtml newline =
    node.htmlTree.map fun tree => HtmlPiece.writeAll newline (HtmlNode.piecesAll tree)
  | .text s => by
    rw [Node.toHtml, Node.htmlTree, htmlText]
    by_cases h : (Text.trim s).isEmpty
    · simp [h, Except.map, HtmlNode.piecesAll]
    · simp [h, Except.map, HtmlNode.piecesAll, HtmlNode.pieces, HtmlPiece.write]
  | .element name [] => by
    unfold Node.toHtml Node.htmlTree
    cases htmlTag? name <;> rfl
  | .element name [body] => by
    unfold Node.toHtml Node.htmlTree
    cases htmlTag? name with
    | none => rfl
    | some tag =>
      dsimp only
      rw [Node.blockToHtml_eq newline body]
      cases Block.htmlTree body with
      | error e => rfl
      | ok tree => exact congrArg Except.ok (htmlTagged_eq newline tag [] tree)
  | .element name [attributes, body] => by
    unfold Node.toHtml Node.htmlTree
    cases htmlTag? name with
    | none => rfl
    | some tag =>
      dsimp only
      rw [Node.blockToHtml_eq newline body, htmlAttributes_eq]
      cases Block.htmlTree body with
      | error e => rfl
      | ok tree => exact congrArg Except.ok (htmlTagged_eq newline tag _ tree)
  | .element name (_ :: _ :: _ :: _) => by
    unfold Node.toHtml Node.htmlTree
    cases htmlTag? name <;> rfl

/-- The nodes of a block are written as the pieces of its tree. -/
theorem Node.blockToHtml_eq (newline : String) : ∀ b : Block, Node.blockToHtml newline b =
    (Block.htmlTree b).map fun tree => HtmlPiece.writeAll newline (HtmlNode.piecesAll tree)
  | [] => rfl
  | node :: rest => by
    rw [Node.blockToHtml, Block.htmlTree, Node.toHtml_eq newline node,
      Node.blockToHtml_eq newline rest]
    cases node.htmlTree <;> cases Block.htmlTree rest <;>
      simp [Except.map, bind, Except.bind, pure, Except.pure]

end

/-- What stands behind every piece of a document. -/
def htmlNewline (inline : Bool) : String := if inline then "" else "\n"

/-- **A block is written as the pieces of its tree**, in either mode. -/
theorem Block.toHtml_eq (inline : Bool) (b : Block) : b.toHtml inline =
    (Block.htmlTree b).map fun tree =>
      HtmlPiece.writeAll (htmlNewline inline) (HtmlNode.document tree) := by
  rw [Block.toHtml]
  simp only [Node.blockToHtml_eq]
  cases Block.htmlTree b <;>
    simp [htmlNewline, HtmlNode.document, HtmlNode.pieces, HtmlPiece.write, Except.map, bind,
      Except.bind, pure, Except.pure, String.append_assoc]

/-! ## Delimiters -/

/-- No character of a text begins or ends a tag, or the value of an attribute. -/
def Inert (s : String) : Prop := ∀ c ∈ s.toList, c ≠ '<' ∧ c ≠ '>' ∧ c ≠ '"'

instance (s : String) : Decidable (Inert s) :=
  List.decidableBAll (fun c => c ≠ '<' ∧ c ≠ '>' ∧ c ≠ '"') s.toList

/-- The names of the attributes of a piece. -/
def HtmlPiece.attributeNames : HtmlPiece → List String
  | opening _ attributes => attributes.map (·.1)
  | _ => []

/-- A piece that is a tag of the list, or `html`, and that holds no delimiters in its values and
    texts. -/
def HtmlPiece.Sealed : HtmlPiece → Prop
  | declaration => True
  | opening tag attributes =>
    tag ∈ "html" :: htmlTags ∧ ∀ a ∈ attributes, Inert (escapeHtml a.2)
  | closing tag => tag ∈ "html" :: htmlTags
  | text s => Inert (escapeHtml s)

theorem inert_escapeHtmlChar (c : Char) : Inert (escapeHtmlChar c) := by
  unfold escapeHtmlChar
  split
  · decide
  · decide
  · decide
  · decide
  · decide
  · next hlt hgt _ _ hquote =>
    intro d hd
    obtain rfl : d = c := by simpa [Char.toString_eq_singleton] using hd
    exact ⟨hlt, hgt, hquote⟩

/-- An escaped text holds no delimiters. -/
theorem inert_escapeHtml (s : String) : Inert (escapeHtml s) := by
  intro c hc
  rw [escapeHtml, String.toList_join, List.flatMap_map] at hc
  obtain ⟨d, -, hd⟩ := List.mem_flatMap.1 hc
  exact inert_escapeHtmlChar d c hd

theorem htmlTag?_mem {name tag : String} (h : htmlTag? name = some tag) : tag ∈ htmlTags :=
  List.mem_of_find?_eq_some h

/-- The pieces of a tag are sealed if those of its body are. -/
theorem HtmlNode.sealed_element {tag : String} {attributes : List (String × String)}
    {body : List HtmlNode} (htag : tag ∈ "html" :: htmlTags)
    (hbody : ∀ piece ∈ HtmlNode.piecesAll body, piece.Sealed) :
    ∀ piece ∈ (HtmlNode.element tag attributes body).pieces, piece.Sealed := by
  intro piece hp
  rcases List.mem_cons.1 hp with rfl | hp
  · exact ⟨htag, fun a _ => inert_escapeHtml a.2⟩
  rcases List.mem_append.1 hp with hp | hp
  · exact hbody piece hp
  · rw [List.mem_singleton.1 hp]
    exact htag

/-- All pieces of a tree are sealed. -/
theorem Block.IsHtml.sealed {b : Block} {tree : List HtmlNode} (h : Block.IsHtml b tree) :
    ∀ piece ∈ HtmlNode.piecesAll tree, piece.Sealed := by
  induction h with
  | nil => simp [HtmlNode.piecesAll]
  | blank _ _ ih => exact ih
  | @text s rest ns _ _ ih =>
    intro piece hp
    rcases List.mem_cons.1 hp with rfl | hp
    · exact inert_escapeHtml (Text.trim s)
    · exact ih piece hp
  | element htag _ _ _ ihBody ih =>
    intro piece hp
    rcases List.mem_append.1 hp with hp | hp
    · exact HtmlNode.sealed_element (List.mem_cons_of_mem _ (htmlTag?_mem htag)) ihBody piece hp
    · exact ih piece hp

/-! ## Names of attributes -/

theorem Block.Writable.elements {b : Block} (hw : Block.Writable b) :
    ∀ e ∈ Block.elements b, ∀ c ∈ e.1.toList, isNameChar c = true := by
  induction b with
  | nil => simp [Block.elements]
  | cons node rest ih =>
    obtain ⟨hnode, -, hrest⟩ := hw
    cases node with
    | text s => exact ih hrest
    | element name arguments =>
      intro e he
      rcases List.mem_cons.1 he with rfl | he
      · exact hnode.1
      · exact ih hrest e he

/-- The body of a tag, and the names of its attributes, among arguments that can be written. -/
theorem HtmlArguments.writable {arguments : List Block} {attributes : List (String × String)}
    {body : Block} (h : HtmlArguments arguments attributes body)
    (hw : Node.WritableArguments arguments) :
    Block.Writable body ∧ ∀ a ∈ attributes, ∀ c ∈ a.1.toList, isNameChar c = true := by
  cases h with
  | body => exact ⟨hw.1, by simp⟩
  | attributes =>
    obtain ⟨hblock, hbody, -⟩ := hw
    refine ⟨hbody, ?_⟩
    intro a ha
    obtain ⟨e, he, rfl⟩ := List.mem_map.1 ha
    exact hblock.elements e he

/-- The names of all attributes in a tree are made of proper characters. -/
theorem Block.IsHtml.names {b : Block} {tree : List HtmlNode} (h : Block.IsHtml b tree)
    (hw : Block.Writable b) : ∀ piece ∈ HtmlNode.piecesAll tree, ∀ name ∈ piece.attributeNames,
      ∀ c ∈ name.toList, isNameChar c = true := by
  induction h with
  | nil => simp [HtmlNode.piecesAll]
  | blank _ _ ih => exact ih hw.2.2
  | text _ _ ih =>
    intro piece hp
    rcases List.mem_cons.1 hp with rfl | hp
    · simp [HtmlPiece.attributeNames]
    · exact ih hw.2.2 piece hp
  | element _ harguments _ _ ihBody ih =>
    obtain ⟨⟨-, -, hblocks⟩, -, hrest⟩ := hw
    obtain ⟨hbody, hnames⟩ := harguments.writable hblocks
    intro piece hp
    rcases List.mem_append.1 hp with hp | hp
    · rcases List.mem_cons.1 hp with rfl | hp
      · intro name hname
        obtain ⟨a, ha, rfl⟩ := List.mem_map.1 hname
        exact hnames a ha
      rcases List.mem_append.1 hp with hp | hp
      · exact ihBody hbody piece hp
      · rw [List.mem_singleton.1 hp]
        simp [HtmlPiece.attributeNames]
    · exact ih hrest piece hp

theorem inert_of_isNameChar {s : String} (h : ∀ c ∈ s.toList, isNameChar c = true) : Inert s := by
  intro c hc
  refine ⟨?_, ?_, ?_⟩ <;> rintro rfl <;> exact absurd (h _ hc) (by decide)

/-! ## Whole documents -/

/-- **Only the name of an attribute can hold a delimiter.**  A document is written as the pieces of
    a tree, all of which are sealed; and the names of its attributes hold no delimiters either if
    the block was read from a text. -/
theorem Block.toHtml_sealed {b : Block} {inline : Bool} {out : String}
    (h : b.toHtml inline = .ok out) :
    ∃ tree, Block.htmlTree b = .ok tree ∧
      out = HtmlPiece.writeAll (htmlNewline inline) (HtmlNode.document tree) ∧
      (∀ piece ∈ HtmlNode.document tree, piece.Sealed) ∧
      ((∃ source, Block.ofSource source = .ok b) →
        ∀ piece ∈ HtmlNode.document tree, ∀ name ∈ piece.attributeNames, Inert name) := by
  rw [Block.toHtml_eq] at h
  cases htree : Block.htmlTree b with
  | error e =>
    rw [htree] at h
    cases h
  | ok tree =>
    rw [htree] at h
    have hhtml := Block.isHtml_of_htmlTree b htree
    refine ⟨tree, rfl, (Except.ok.inj h).symm, ?_, ?_⟩
    · intro piece hp
      rcases List.mem_cons.1 hp with rfl | hp
      · trivial
      · exact HtmlNode.sealed_element (List.mem_cons_self ..) hhtml.sealed piece hp
    · rintro ⟨source, hsource⟩ piece hp name hname
      have hnames := hhtml.names (Block.writable_of_ofSource hsource)
      rcases List.mem_cons.1 hp with rfl | hp
      · cases hname
      rcases List.mem_cons.1 hp with rfl | hp
      · cases hname
      rcases List.mem_append.1 hp with hp | hp
      · exact inert_of_isNameChar (hnames piece hp name hname)
      · rw [List.mem_singleton.1 hp] at hname
        cases hname

/-- A document that was read, with delimiters in its text and in the value of an attribute. -/
theorem Block.toHtml_sealed_quoted :
    ∃ b tree, Block.ofSource "#html.p\x7b#title\x7ba<b\x7d\x7d\x7b\"c>\"\x7d" = .ok b ∧
      b.toHtml true = .ok ("<!DOCTYPE html><html><p title=\"a&lt;b\">&#34;c&gt;&#34;</p></html>") ∧
      Block.htmlTree b = .ok tree ∧ (∀ piece ∈ HtmlNode.document tree, piece.Sealed) ∧
      ∀ piece ∈ HtmlNode.document tree, ∀ name ∈ piece.attributeNames, Inert name := by
  have hsource : Block.ofSource "#html.p\x7b#title\x7ba<b\x7d\x7d\x7b\"c>\"\x7d" =
      .ok [.element "html.p" [[.element "title" [[.text "a<b"]]], [.text "\"c>\""]]] := by
    decide +kernel
  have hout : Block.toHtml true
      [.element "html.p" [[.element "title" [[.text "a<b"]]], [.text "\"c>\""]]] =
      .ok ("<!DOCTYPE html><html><p title=\"a&lt;b\">&#34;c&gt;&#34;</p></html>") := by
    decide +kernel
  obtain ⟨tree, htree, -, hsealed, hnames⟩ := Block.toHtml_sealed hout
  exact ⟨_, tree, hsource, hout, htree, hsealed, hnames ⟨_, hsource⟩⟩

/-- In a block that was not read from a text, the name of an attribute can close its tag and open
    another one: of the six `<` of this document, five begin its tags. -/
theorem Block.toHtml_name_unescaped :
    ∃ b tree out, b.toHtml true = .ok out ∧
      out = "<!DOCTYPE html><html><p a\"><script>=\"\"></p></html>" ∧
      Block.htmlTree b = .ok tree ∧ (HtmlNode.document tree).length = 5 ∧
      out.toList.count '<' = 6 ∧ out.toList.count '>' = 7 ∧ out.toList.count '"' = 3 := by
  refine ⟨[.element "html.p" [[.element "a\"><script>" []], []]],
    [.element "p" [("a\"><script>", "")] []], _, by decide +kernel, rfl, rfl, rfl, ?_⟩
  decide +kernel

end BraceMarkup
