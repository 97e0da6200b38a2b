/-
  The formats that a block can be written in.

  * `Format`, `Format.name`, `Format.ofName?`: the formats and their names;
  * `Format.render`: a block in a format.
-/
import BraceMarkup.Block.Dump
import BraceMarkup.Block.Json
import BraceMarkup.Html

namespace BraceMarkup

/-- A format to write blocks in. -/
inductive Format where
  | dump
  | json
  | jsonInline
  | html
  | htmlInline
  deriving Repr, DecidableEq

namespace Format

/-- All formats, in the order in which they are listed to a user. -/
def all : List Format := [dump, json, jsonInline, html, htmlInline]

/-- The name of a format. -/
def name : Format → String
  | dump => "repr"
  | json => "json"
  | jsonInline => "json.inline"
  | html => "html"
  | htmlInline => "html.inline"

/-- The format of a name. -/
def ofName? (s : String) : Option Format := all.find? fun f => f.name = s

/-- A block in a format.  Only HTML cannot hold every block. -/
def render (f : Format) (b : Block) : Except HtmlError String :=
  match f with
  | dump => .ok b.dump
  | json => .ok (b.toJson.indented 4)
  | jsonInline => .ok b.toJson.compact
  | html => b.toHtml false
  | htmlInline => b.toHtml true

/-- Every format is found by its name. -/
theorem ofName?_name (f : Format) : ofName? f.name = some f := by
  cases f <;> decide

end Format

end BraceMarkup
