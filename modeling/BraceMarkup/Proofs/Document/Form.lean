/-
  Which blocks are documents.

  The metadata of a document is written as entries: elements with one argument
  each.  The argument of an entry holds its text, or a dictionary, which is an
  element named `dict` whose argument holds entries again, to any depth.

  Only the first element in the argument of an entry is looked at.  So every
  block of this form is a document, and so is every block that comes to be of
  this form without the elements behind the first one in the argument of an
  entry, whatever these are.

  * `AreEntries`, `AreDictionaries`: the form of entries, where it is given which
    elements of an argument are looked at;
  * `Block.IsDocument`: the form of a document;
  * `MetadataValue.ofBlock_element`, `Metadata.ofBlock_element`,
    `Document.extend_element`: what the three readers make of an element;
  * `Document.exists_iff_isDocument`: **the blocks that are documents**;
  * `Document.ofBlock_passes_over`: an element that is no dictionary, and is
    passed over.
-/
import BraceMarkup.Document
import BraceMarkup.Source

namespace BraceMarkup

/-! ## The form -/

section
variable (seen : Block → List (String × List Block))

mutual

/-- Some elements are entries: each has one argument, and the elements that are seen in it are
    dictionaries. -/
inductive AreEntries : List (String × List Block) → Prop
  | nil : AreEntries []
  | cons {name : String} {argument : Block} {rest : List (String × List Block)} :
      AreDictionaries (seen argument) → AreEntries rest →
      AreEntries ((name, [argument]) :: rest)

/-- Some elements are dictionaries: each is named `dict` and has one argument, whose elements are
    entries. -/
inductive AreDictionaries : List (String × List Block) → Prop
  | nil : AreDictionaries []
  | cons {argument : Block} {rest : List (String × List Block)} :
      AreEntries argument.elements → AreDictionaries rest →
      AreDictionaries (("dict", [argument]) :: rest)

end

/-- A block has the form of a document: each of its elements is named `metadata` and has one
    argument, whose elements are entries. -/
def Block.IsDocument (b : Block) : Prop :=
  ∀ element ∈ b.elements, element.1 = "metadata" ∧
    ∃ argument : Block, element.2 = [argument] ∧ AreEntries seen argument.elements

end

/-- The first of the direct elements, if there is one. -/
def Block.foremost (b : Block) : List (String × List Block) := b.firstElement?.toList

mutual

/-- Where all elements are seen, the first one is. -/
theorem AreEntries.foremost {elements : List (String × List Block)} :
    AreEntries Block.elements elements → AreEntries Block.foremost elements
  | .nil => .nil
  | .cons hargument hrest => .cons hargument.foremost hrest.foremost

theorem AreDictionaries.foremost {elements : List (String × List Block)} :
    AreDictionaries Block.elements elements →
      AreDictionaries Block.foremost elements.head?.toList
  | .nil => .nil
  | .cons hargument _ => .cons hargument.foremost .nil

end

/-! ## What the readers make of an element -/

section
variable {name : String} {arguments : List Block} {rest : Block}

/-- The first element in the argument of an entry is the dictionary that the entry stands for. -/
theorem MetadataValue.ofBlock_element {whole : Block} {value : MetadataValue} :
    MetadataValue.ofBlock whole (.element name arguments :: rest) = .ok value ↔
      ∃ argument entries, name = "dict" ∧ arguments = [argument] ∧
        Metadata.ofBlock [] argument = .ok entries ∧ value = .dictionary entries := by
  by_cases hname : name = "dict"
  · rcases arguments with _ | ⟨argument, _ | ⟨second, more⟩⟩
    · simp [MetadataValue.ofBlock, hname]
    · rw [MetadataValue.ofBlock, if_pos hname, bind_eq_ok_iff]
      constructor
      · rintro ⟨entries, hentries, h⟩
        exact ⟨argument, entries, hname, rfl, hentries, (Except.ok.inj h).symm⟩
      · rintro ⟨_, entries, -, hargument, hentries, rfl⟩
        cases hargument
        exact ⟨entries, hentries, rfl⟩
    · simp [MetadataValue.ofBlock, hname]
  · have herror : MetadataValue.ofBlock whole (.element name arguments :: rest) =
        .error (.invalidDictValue name) := by
      rcases arguments with _ | ⟨argument, _ | ⟨second, more⟩⟩ <;>
        simp [MetadataValue.ofBlock, hname]
    simp [herror, hname]

/-- An element among entries is an entry of its name, in place of one before it. -/
theorem Metadata.ofBlock_element {before metadata : Metadata} :
    Metadata.ofBlock before (.element name arguments :: rest) = .ok metadata ↔
      ∃ argument value, arguments = [argument] ∧
        MetadataValue.ofBlock argument argument = .ok value ∧
        Metadata.ofBlock (Entries.insert name value before) rest = .ok metadata := by
  rcases arguments with _ | ⟨argument, _ | ⟨second, more⟩⟩
  · simp [Metadata.ofBlock]
  · rw [Metadata.ofBlock, bind_eq_ok_iff]
    simp
  · simp [Metadata.ofBlock]

/-- An element of a document adds its entries to the metadata. -/
theorem Document.extend_element {before document : Document} :
    Document.extend before (.element name arguments :: rest) = .ok document ↔
      ∃ argument entries, name = "metadata" ∧ arguments = [argument] ∧
        Metadata.ofBlock [] argument = .ok entries ∧
        Document.extend ⟨before.text, Entries.insertAll before.metadata entries⟩ rest =
          .ok document := by
  by_cases hname : name = "metadata"
  · rcases arguments with _ | ⟨argument, _ | ⟨second, more⟩⟩
    · simp [Document.extend, hname]
    · rw [Document.extend, if_pos hname, bind_eq_ok_iff]
      simp [hname]
    · simp [Document.extend, hname]
  · have herror : Document.extend before (.element name arguments :: rest) =
        .error (.unexpectedElement name) := by
      rcases arguments with _ | ⟨argument, _ | ⟨second, more⟩⟩ <;> simp [Document.extend, hname]
    simp [herror, hname]

end

/-! ## Blocks that are documents -/

theorem areEntries_cons_iff {seen : Block → List (String × List Block)} {name : String}
    {arguments : List Block} {rest : List (String × List Block)} :
    AreEntries seen ((name, arguments) :: rest) ↔
      (∃ argument, arguments = [argument] ∧ AreDictionaries seen (seen argument)) ∧
        AreEntries seen rest := by
  constructor
  · rintro (_ | ⟨hargument, hrest⟩)
    exact ⟨⟨_, rfl, hargument⟩, hrest⟩
  · rintro ⟨⟨argument, rfl, hargument⟩, hrest⟩
    exact .cons hargument hrest

theorem areDictionaries_cons_iff {seen : Block → List (String × List Block)} {name : String}
    {arguments : List Block} {rest : List (String × List Block)} :
    AreDictionaries seen ((name, arguments) :: rest) ↔
      (name = "dict" ∧ ∃ argument : Block, arguments = [argument] ∧
        AreEntries seen argument.elements) ∧ AreDictionaries seen rest := by
  constructor
  · rintro (_ | ⟨hargument, hrest⟩)
    exact ⟨⟨rfl, _, rfl, hargument⟩, hrest⟩
  · rintro ⟨⟨rfl, argument, rfl, hargument⟩, hrest⟩
    exact .cons hargument hrest

mutual

/-- Entries can be read if they have the form, whatever was read before them. -/
theorem Metadata.exists_ofBlock_iff : ∀ (b : Block) (before : Metadata),
    (∃ metadata, Metadata.ofBlock before b = .ok metadata) ↔
      AreEntries Block.foremost b.elements
  | [], before => by simp [Metadata.ofBlock, Block.elements, AreEntries.nil]
  | .text _ :: rest, before => by
    rw [Metadata.ofBlock, Block.elements]
    exact Metadata.exists_ofBlock_iff rest before
  | .element name arguments :: rest, before => by
    rw [Block.elements, areEntries_cons_iff]
    constructor
    · rintro ⟨metadata, h⟩
      obtain ⟨argument, value, rfl, hvalue, hrest⟩ := Metadata.ofBlock_element.1 h
      have hargument := (MetadataValue.exists_ofBlock_iff argument argument).1 ⟨value, hvalue⟩
      exact ⟨⟨argument, rfl, hargument⟩, (Metadata.exists_ofBlock_iff rest _).1 ⟨metadata, hrest⟩⟩
    · rintro ⟨⟨argument, rfl, hargument⟩, hrest⟩
      obtain ⟨value, hvalue⟩ := (MetadataValue.exists_ofBlock_iff argument argument).2 hargument
      obtain ⟨metadata, hmetadata⟩ :=
        (Metadata.exists_ofBlock_iff rest (Entries.insert name value before)).2 hrest
      exact ⟨metadata, Metadata.ofBlock_element.2 ⟨argument, value, rfl, hvalue, hmetadata⟩⟩

/-- What an entry stands for can be read if the first element in its argument is a dictionary, or
    there is none. -/
theorem MetadataValue.exists_ofBlock_iff (whole : Block) : ∀ b : Block,
    (∃ value, MetadataValue.ofBlock whole b = .ok value) ↔
      AreDictionaries Block.foremost b.foremost
  | [] => by
    simp [MetadataValue.ofBlock, Block.foremost, Block.firstElement?, Block.elements,
      AreDictionaries.nil]
  | .text _ :: rest => by
    rw [MetadataValue.ofBlock]
    exact MetadataValue.exists_ofBlock_iff whole rest
  | .element name arguments :: rest => by
    constructor
    · rintro ⟨value, h⟩
      obtain ⟨argument, entries, rfl, rfl, hentries, -⟩ := MetadataValue.ofBlock_element.1 h
      exact .cons ((Metadata.exists_ofBlock_iff argument []).1 ⟨entries, hentries⟩) .nil
    · intro h
      obtain ⟨⟨hname, argument, harguments, hargument⟩, -⟩ := areDictionaries_cons_iff.1 h
      obtain ⟨entries, hentries⟩ := (Metadata.exists_ofBlock_iff argument []).2 hargument
      exact ⟨_, MetadataValue.ofBlock_element.2
        ⟨argument, entries, hname, harguments, hentries, rfl⟩⟩

end

/-- The form of a document whose first node is an element. -/
theorem Block.isDocument_element {seen : Block → List (String × List Block)} {name : String}
    {arguments : List Block} {rest : Block} :
    Block.IsDocument seen (.element name arguments :: rest) ↔
      (name = "metadata" ∧ ∃ argument : Block, arguments = [argument] ∧
        AreEntries seen argument.elements) ∧ rest.IsDocument seen :=
  List.forall_mem_cons

theorem Document.exists_extend_iff (b : Block) (before : Document) :
    (∃ d, Document.extend before b = .ok d) ↔ b.IsDocument Block.foremost := by
  induction b generalizing before with
  | nil => simp [Document.extend, Block.IsDocument, Block.elements]
  | cons node rest ih =>
    cases node with
    | text s => exact ih _
    | element name arguments =>
      rw [Block.isDocument_element]
      constructor
      · rintro ⟨d, h⟩
        obtain ⟨argument, entries, hname, harguments, hentries, hrest⟩ :=
          Document.extend_element.1 h
        have hargument := (Metadata.exists_ofBlock_iff argument []).1 ⟨entries, hentries⟩
        exact ⟨⟨hname, argument, harguments, hargument⟩, (ih _).1 ⟨d, hrest⟩⟩
      · rintro ⟨⟨hname, argument, harguments, hargument⟩, hrest⟩
        obtain ⟨entries, hentries⟩ := (Metadata.exists_ofBlock_iff argument []).2 hargument
        obtain ⟨d, hd⟩ :=
          (ih ⟨before.text, Entries.insertAll before.metadata entries⟩).2 hrest
        exact ⟨d, Document.extend_element.2
          ⟨argument, entries, hname, harguments, hentries, hd⟩⟩

/-- **The blocks that are documents** are those of the form of a document, as far as the first
    element in the argument of each entry is concerned.  So every block of the form is a document,
    but of the elements behind the first one in the argument of an entry nothing is asked. -/
theorem Document.exists_iff_isDocument (b : Block) :
    ((∃ d, Document.ofBlock b = .ok d) ↔ b.IsDocument Block.foremost) ∧
      (b.IsDocument Block.elements → ∃ d, Document.ofBlock b = .ok d) := by
  have hiff := Document.exists_extend_iff b ⟨"", []⟩
  refine ⟨hiff, fun h => hiff.2 fun element hm => ?_⟩
  obtain ⟨hname, argument, harguments, hentries⟩ := h element hm
  exact ⟨hname, argument, harguments, hentries.foremost⟩

/-- Two entries, of which one is a dictionary with text around it. -/
theorem Document.exists_iff_isDocument_dictionary :
    let b : Block := [.text "p", .element "metadata" [[.element "a" [[.text "1"]], .text " ",
      .element "b" [[.text " ", .element "dict" [[.element "c" [[]]]], .text "q"]]]]]
    b.IsDocument Block.elements ∧ ∃ d, Document.ofBlock b = .ok d := by
  intro b
  have hb : b.IsDocument Block.elements := by
    intro element hm
    obtain rfl := List.mem_singleton.1 hm
    exact ⟨rfl, _, rfl, .cons .nil (.cons (.cons (.cons .nil .nil) .nil) .nil)⟩
  exact ⟨hb, (Document.exists_iff_isDocument b).2 hb⟩

/-- An element that is no dictionary stands in an entry behind one that is, and is passed over. -/
theorem Document.ofBlock_passes_over :
    let b : Block := [.element "metadata" [[.element "a"
      [[.element "dict" [[.element "b" [[.text "1"]]]], .element "list" [[.text "x"]]]]]]]
    Document.ofBlock b = .ok ⟨"", [("a", .dictionary [("b", .text "1")])]⟩ ∧
      ¬ b.IsDocument Block.elements := by
  intro b
  have htrim : Text.trim "1" = "1" := by decide +kernel
  have htext : MetadataValue.ofBlock [.text "1"] [.text "1"] = .ok (.text "1") := by
    simp [MetadataValue.ofBlock, Block.textContent, htrim]
  have hdictionary : Metadata.ofBlock [] [.element "b" [[.text "1"]]] = .ok [("b", .text "1")] :=
    Metadata.ofBlock_element.2 ⟨_, _, rfl, htext, by simp [Metadata.ofBlock, Entries.insert]⟩
  constructor
  · rw [Document.ofBlock, Document.extend_element]
    refine ⟨_, [("a", .dictionary [("b", .text "1")])], rfl, rfl, ?_, rfl⟩
    refine Metadata.ofBlock_element.2 ⟨_, .dictionary [("b", .text "1")], rfl, ?_,
      by rw [Metadata.ofBlock, Entries.insert]⟩
    exact MetadataValue.ofBlock_element.2 ⟨_, _, rfl, rfl, hdictionary, rfl⟩
  · intro h
    obtain ⟨-, argument, hargument, hentries⟩ := h _ List.mem_cons_self
    cases hargument
    obtain ⟨⟨argument, hargument, hdictionaries⟩, -⟩ := areEntries_cons_iff.1 hentries
    cases hargument
    obtain ⟨-, hothers⟩ := areDictionaries_cons_iff.1 hdictionaries
    obtain ⟨⟨hname, -⟩, -⟩ := areDictionaries_cons_iff.1 hothers
    exact absurd hname (by decide)

end BraceMarkup
