/-
  Documents: text with metadata.

  The text outside of all elements is the text of the document.  Elements
  named `metadata` hold its metadata: every element in one is an entry, whose
  value is the text of its argument, or a dictionary with entries of its own
  if the argument holds an element named `dict`.  Of entries with the same name
  the last one counts.

  * `Metadata`, `MetadataValue`: entries in the order of their names;
  * `Document.ofBlock`: the document that a block stands for, or the
    `DocumentError` in it;
  * `Metadata.toJson`: metadata as JSON.
-/
import BraceMarkup.Block
import BraceMarkup.Entries
import BraceMarkup.Json
import BraceMarkup.Text.Blank

namespace BraceMarkup

/-! ## Metadata -/

/-- What an entry stands for: a text, or entries in the order of their names. -/
inductive MetadataValue where
  | text (s : String)
  | dictionary (entries : List (String × MetadataValue))
  deriving Repr

/-- Entries in the order of their names, no two with the same name. -/
abbrev Metadata := Entries MetadataValue

mutual

/-- What an entry stands for as JSON. -/
def MetadataValue.toJson : MetadataValue → Json
  | .text s => .string s
  | .dictionary entries => .object (MetadataValue.entriesToJson entries)

/-- Entries as the members of a JSON object. -/
def MetadataValue.entriesToJson : List (String × MetadataValue) → List (String × Json)
  | [] => []
  | (name, value) :: rest => (name, value.toJson) :: MetadataValue.entriesToJson rest

end

/-- Metadata as a JSON object. -/
def Metadata.toJson (metadata : Metadata) : Json :=
  .object (MetadataValue.entriesToJson metadata)

/-! ## Documents -/

/-- Why a block is no document. -/
inductive DocumentError where
  | wrongArity (name : String) (found : Nat)
  | unexpectedElement (name : String)
  | invalidDictValue (name : String)
  deriving Repr, DecidableEq

/-- The reason in words. -/
def DocumentError.message : DocumentError → String
  | wrongArity name found =>
    "invalid number of arguments for element " ++ Text.quoted name ++ ": " ++ toString found
  | unexpectedElement name => "unexpected element " ++ Text.quoted name ++ " outside of metadata"
  | invalidDictValue name => "invalid dict value with identifier " ++ Text.quoted name

mutual

/-- The entries of a block, added to those before them. -/
def Metadata.ofBlock (before : Metadata) : Block → Except DocumentError Metadata
  | [] => .ok before
  | .text _ :: rest => Metadata.ofBlock before rest
  | .element name [argument] :: rest => do
    let value ← MetadataValue.ofBlock argument argument
    Metadata.ofBlock (Entries.insert name value before) rest
  | .element name arguments :: _ => .error (.wrongArity name arguments.length)

/-- What an entry with the argument `whole` stands for, where only `nodes` may still hold an
    element. -/
def MetadataValue.ofBlock (whole : Block) : Block → Except DocumentError MetadataValue
  | [] => .ok (.text (Text.trim whole.textContent))
  | .text _ :: rest => MetadataValue.ofBlock whole rest
  | .element name arguments :: _ =>
    if name = "dict" then
      match arguments with
      | [argument] => do return .dictionary (← Metadata.ofBlock [] argument)
      | arguments => .error (.wrongArity name arguments.length)
    else .error (.invalidDictValue name)

end

/-- A text with metadata. -/
structure Document where
  text : String
  metadata : Metadata
  deriving Repr

/-- A document with what some more nodes add to it. -/
def Document.extend (before : Document) : Block → Except DocumentError Document
  | [] => .ok before
  | .text s :: rest => Document.extend { before with text := before.text ++ s } rest
  | .element name arguments :: rest =>
    if name = "metadata" then
      match arguments with
      | [argument] => do
        let entries ← Metadata.ofBlock [] argument
        Document.extend { before with metadata := Entries.insertAll before.metadata entries } rest
      | arguments => .error (.wrongArity name arguments.length)
    else .error (.unexpectedElement name)

/-- The document that a block stands for. -/
def Document.ofBlock (b : Block) : Except DocumentError Document := Document.extend ⟨"", []⟩ b

end BraceMarkup
