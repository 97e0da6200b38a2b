/-
  Blocks as HTML.

  An element whose name is `html.` and a known tag becomes that tag.  It has a
  body, or attributes and a body; every element among the attributes is one,
  with the text of its first argument as its value.  Text is trimmed and
  escaped, and blank text left out.

  * `htmlTag?`: the tag that a name stands for;
  * `escapeHtml`: text without characters that mean something in HTML;
  * `HtmlError`: why a block has no form in HTML;
  * `Block.toHtml`: the HTML document of a block.
-/
import BraceMarkup.Block
import BraceMarkup.Text.Blank
import BraceMarkup.Text.Quoted

namespace BraceMarkup

/-- The tags that elements may stand for. -/
def htmlTags : List String :=
  ["head", "title", "body", "main", "section", "p", "h1", "h2", "h3", "h4", "h5", "h6", "ul", "ol",
    "li", "strong", "em", "b", "i", "u", "code", "pre", "div", "span", "img", "figure"]

/-- The tag that the name of an element stands for. -/
def htmlTag? (name : String) : Option String :=
  htmlTags.find? fun tag => name = "html." ++ tag

/-- A character, or the reference that stands for it in HTML. -/
def escapeHtmlChar (c : Char) : String :=
  match c with
  | '<' => "&lt;"
  | '>' => "&gt;"
  | '&' => "&amp;"
  | '\'' => "&#39;"
  | '"' => "&#34;"
  | c => c.toString

/-- A text in which the characters that mean something in HTML are replaced by references. -/
def escapeHtml (s : String) : String := String.join (s.toList.map escapeHtmlChar)

/-- Why a block has no form in HTML. -/
inductive HtmlError where
  | unknownElement (name : String)
  | wrongArity (name : String) (found : Nat)
  deriving Repr, DecidableEq

/-- The reason in words. -/
def HtmlError.message : HtmlError → String
  | unknownElement name => "invalid html element with name " ++ Text.quoted name
  | wrongArity name found =>
    "invalid number of arguments for element " ++ Text.quoted name ++ ": " ++ toString found

/-- The attributes of a tag, each with a space before it. -/
def htmlAttributes (b : Block) : String :=
  String.join <| b.elements.map fun (name, arguments) =>
    " " ++ name ++ "=\"" ++ escapeHtml ((arguments.head?.map Block.textContent).getD "") ++ "\""

section
-- what stands behind every tag and every text
variable (newline : String)

/-- A text, trimmed and escaped; nothing at all if it is blank. -/
def htmlText (s : String) : String :=
  let trimmed := Text.trim s
  if trimmed.isEmpty then "" else escapeHtml trimmed ++ newline

/-- A tag around some content. -/
def htmlTagged (tag attributes content : String) : String :=
  "<" ++ tag ++ attributes ++ ">" ++ newline ++ content ++ "</" ++ tag ++ ">" ++ newline

mutual

/-- A node as HTML. -/
def Node.toHtml : Node → Except HtmlError String
  | .text s => .ok (htmlText newline s)
  | .element name arguments =>
    match htmlTag? name, arguments with
    | none, _ => .error (.unknownElement name)
    | some tag, [body] => do
      return htmlTagged newline tag "" (← Node.blockToHtml body)
    | some tag, [attributes, body] => do
      return htmlTagged newline tag (htmlAttributes attributes) (← Node.blockToHtml body)
    | some _, arguments => .error (.wrongArity name arguments.length)

/-- The nodes of a block as HTML, one after the other. -/
def Node.blockToHtml : Block → Except HtmlError String
  | [] => .ok ""
  | node :: rest => do
    let html ← node.toHtml
    return html ++ (← Node.blockToHtml rest)

end

end

/-- The HTML document of a block: on one line, or with a new line behind every tag and text. -/
def Block.toHtml (inline : Bool) (b : Block) : Except HtmlError String := do
  let newline := if inline then "" else "\n"
  let content ← Node.blockToHtml newline b
  return "<!DOCTYPE html>" ++ newline ++ "<html>" ++ newline ++ content ++ "</html>" ++ newline

end BraceMarkup
