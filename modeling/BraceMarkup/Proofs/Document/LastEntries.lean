/-
  Of entries with the same name the last one counts.

  The entries of a document stand in its elements named `metadata`, one after
  the other in the order of the document.  A name stands for what the last
  entry of that name holds, as a whole: of a dictionary that an earlier entry
  of the name held nothing is left.

  * `IsLast`: the last of some elements with a name;
  * `MetadataValue.StandsFor`, `Metadata.Collects`: the metadata of entries,
    without a word about the order in which they are read;
  * `Metadata.Collects.unique`: there is only one;
  * `Metadata.Collects.append`: what entries and some more collect to;
  * `Metadata.collects_of_ofBlock`: the entries of one block;
  * `Document.lastEntries_of_ofBlock`: **the metadata of a document are its last
    entries**.
-/
import BraceMarkup.Proofs.Document.Form
import Mathlib.Data.List.Sort

namespace BraceMarkup

/-! ## Last entries -/

/-- The last of some elements with a name has one argument, which is `argument`. -/
def IsLast (elements : List (String × List Block)) (name : String) (argument : Block) : Prop :=
  ∃ before after, elements = before ++ (name, [argument]) :: after ∧
    name ∉ after.map Prod.fst

mutual

/-- What an entry stands for: the text of its argument, or what the entries in the first element of
    the argument collect to, which is a dictionary then. -/
inductive MetadataValue.StandsFor : Block → MetadataValue → Prop
  | text {b : Block} :
      b.elements = [] → MetadataValue.StandsFor b (.text (Text.trim b.textContent))
  | dictionary {b argument : Block} {others : List (String × List Block)} {entries : Metadata} :
      b.elements = ("dict", [argument]) :: others →
      Metadata.Collects argument.elements entries →
      MetadataValue.StandsFor b (.dictionary entries)

/-- Elements collect to metadata: the names are those of the elements, and each of them has the
    value that the last element with that name stands for. -/
inductive Metadata.Collects : List (String × List Block) → Metadata → Prop
  | intro {elements : List (String × List Block)} {metadata : Metadata} :
      Entries.Sorted metadata →
      (∀ name, name ∈ metadata.map Prod.fst ↔ name ∈ elements.map Prod.fst) →
      AreLast elements metadata → Metadata.Collects elements metadata

/-- Each value is what the last element with its name stands for. -/
inductive AreLast : List (String × List Block) → Metadata → Prop
  | nil {elements : List (String × List Block)} : AreLast elements []
  | cons {elements : List (String × List Block)} {name : String} {argument : Block}
      {value : MetadataValue} {rest : Metadata} :
      IsLast elements name argument → MetadataValue.StandsFor argument value →
      AreLast elements rest → AreLast elements ((name, value) :: rest)

end

/-- The elements of all direct elements that are named `metadata`, in order. -/
def Block.metadataEntries (b : Block) : List (String × List Block) :=
  (b.elements.filter (·.1 = "metadata")).flatMap fun element => element.2.flatMap Block.elements

section
variable {elements more : List (String × List Block)} {name : String} {argument : Block}

/-- The last element with a name is the one found first from behind. -/
theorem isLast_iff_lookup :
    IsLast elements name argument ↔ elements.reverse.lookup name = some [argument] :=
  Entries.lastNamed_iff_lookup

/-- Only one element is the last with its name. -/
theorem IsLast.unique {other : Block} (h : IsLast elements name argument)
    (hother : IsLast elements name other) : argument = other := by
  rw [isLast_iff_lookup] at h hother
  simpa using h.symm.trans hother

/-- Elements in front do not matter to what is last. -/
theorem IsLast.append_left (h : IsLast more name argument) :
    IsLast (elements ++ more) name argument := by
  obtain ⟨before, after, rfl, hafter⟩ := h
  exact ⟨elements ++ before, after, by simp, hafter⟩

/-- Elements behind do not matter if none of them has the name. -/
theorem IsLast.append_right (h : IsLast elements name argument) (hmore : name ∉ more.map Prod.fst) :
    IsLast (elements ++ more) name argument := by
  obtain ⟨before, after, rfl, hafter⟩ := h
  refine ⟨before, after ++ more, by simp, ?_⟩
  rw [List.map_append, List.mem_append]
  exact not_or.2 ⟨hafter, hmore⟩

theorem isLast_singleton : IsLast [(name, [argument])] name argument := ⟨[], [], rfl, by simp⟩

theorem areLast_iff {metadata : Metadata} :
    AreLast elements metadata ↔ ∀ entry ∈ metadata, ∃ argument,
      IsLast elements entry.1 argument ∧ MetadataValue.StandsFor argument entry.2 := by
  induction metadata with
  | nil => simp [AreLast.nil]
  | cons entry rest ih =>
    obtain ⟨name, value⟩ := entry
    rw [List.forall_mem_cons, ← ih]
    constructor
    · rintro (_ | ⟨hlast, hvalue, hrest⟩)
      exact ⟨⟨_, hlast, hvalue⟩, hrest⟩
    · rintro ⟨⟨argument, hlast, hvalue⟩, hrest⟩
      exact .cons hlast hvalue hrest

end

/-! ## Only one collection -/

/-- Names in ascending order are determined by which names they are. -/
theorem Entries.names_eq {α β : Type} {entries : Entries α} {others : Entries β}
    (h : Entries.Sorted entries) (hothers : Entries.Sorted others)
    (hnames : ∀ name, name ∈ entries.map Prod.fst ↔ name ∈ others.map Prod.fst) :
    entries.map Prod.fst = others.map Prod.fst :=
  List.Pairwise.eq_of_mem_iff (List.pairwise_map.2 h) (List.pairwise_map.2 hothers) hnames

mutual

/-- An entry stands for one value only. -/
theorem MetadataValue.StandsFor.unique {b : Block} {value other : MetadataValue} :
    MetadataValue.StandsFor b value → MetadataValue.StandsFor b other → value = other
  | .text _, .text _ => rfl
  | .text hb, .dictionary hother _ => by simp [hb] at hother
  | .dictionary hb _, .text hother => by simp [hother] at hb
  | .dictionary hb h, .dictionary hother h' => by
    obtain ⟨⟨-, rfl⟩, -⟩ : _ ∧ _ := by simpa using hb.symm.trans hother
    rw [h.unique h']

/-- Elements collect to one map of metadata only. -/
theorem Metadata.Collects.unique {elements : List (String × List Block)}
    {metadata other : Metadata} :
    Metadata.Collects elements metadata → Metadata.Collects elements other → metadata = other
  | .intro hsorted hnames hlast, .intro hsorted' hnames' hlast' =>
    hlast.unique hlast'
      (Entries.names_eq hsorted hsorted' fun name => (hnames name).trans (hnames' name).symm)

theorem AreLast.unique {elements : List (String × List Block)} {metadata other : Metadata} :
    AreLast elements metadata → AreLast elements other →
      metadata.map Prod.fst = other.map Prod.fst → metadata = other
  | .nil, .nil, _ => rfl
  | .nil, .cons _ _ _, h => by simp at h
  | .cons _ _ _, .nil, h => by simp at h
  | .cons hlast hvalue hrest, .cons hlast' hvalue' hrest', h => by
    obtain ⟨rfl, hnames⟩ := List.cons.inj h
    obtain rfl := hlast.unique hlast'
    rw [hvalue.unique hvalue', hrest.unique hrest' hnames]

end

/-! ## Collecting from more and more elements -/

namespace Metadata.Collects

variable {elements more : List (String × List Block)} {metadata others : Metadata}

theorem sorted : Collects elements metadata → Entries.Sorted metadata
  | .intro hsorted _ _ => hsorted

theorem names : Collects elements metadata →
    ∀ name, name ∈ metadata.map Prod.fst ↔ name ∈ elements.map Prod.fst
  | .intro _ hnames _ => hnames

theorem areLast : Collects elements metadata → AreLast elements metadata
  | .intro _ _ hlast => hlast

theorem empty : Collects [] [] := .intro .nil (fun _ => Iff.rfl) .nil

/-- One element collects to one entry. -/
theorem singleton {argument : Block} {value : MetadataValue} (name : String)
    (h : MetadataValue.StandsFor argument value) : Collects [(name, [argument])] [(name, value)] :=
  .intro (List.pairwise_singleton ..) (fun _ => Iff.rfl) (.cons isLast_singleton h .nil)

/-- Of elements and some more, those names that occur among the latter have the values from
    there. -/
theorem append (h : Collects elements metadata) (hmore : Collects more others) :
    Collects (elements ++ more) (Entries.insertAll metadata others) := by
  have hmem := Entries.mem_insertAll_iff hmore.sorted h.sorted
  refine .intro (Entries.sorted_insertAll others h.sorted) (fun name => ?_)
    (areLast_iff.2 fun entry hentry => ?_)
  · rw [List.map_append, List.mem_append, ← h.names, ← hmore.names]
    constructor
    · intro hname
      obtain ⟨entry, hentry, rfl⟩ := List.mem_map.1 hname
      rcases (hmem entry).1 hentry with hm | ⟨hm, -⟩
      · exact Or.inr (List.mem_map_of_mem hm)
      · exact Or.inl (List.mem_map_of_mem hm)
    · intro hname
      by_cases hnew : name ∈ others.map Prod.fst
      · obtain ⟨entry, hentry, rfl⟩ := List.mem_map.1 hnew
        exact List.mem_map_of_mem ((hmem entry).2 (Or.inl hentry))
      · obtain ⟨entry, hentry, rfl⟩ := List.mem_map.1 (hname.resolve_right hnew)
        exact List.mem_map_of_mem ((hmem entry).2 (Or.inr ⟨hentry, hnew⟩))
  · rcases (hmem entry).1 hentry with hm | ⟨hm, hnew⟩
    · obtain ⟨argument, hlast, hvalue⟩ := areLast_iff.1 hmore.areLast entry hm
      exact ⟨argument, hlast.append_left, hvalue⟩
    · obtain ⟨argument, hlast, hvalue⟩ := areLast_iff.1 h.areLast entry hm
      exact ⟨argument, hlast.append_right fun hname => hnew ((hmore.names _).2 hname), hvalue⟩

end Metadata.Collects

/-! ## What is read -/

mutual

/-- The entries that are read are collected from the elements: induction on the elements that are
    left, where those before them are collected already. -/
theorem Metadata.collects_of_ofBlock : ∀ (b : Block) {elements : List (String × List Block)}
    {before metadata : Metadata}, Metadata.Collects elements before →
      Metadata.ofBlock before b = .ok metadata →
      Metadata.Collects (elements ++ b.elements) metadata
  | [], _, _, _, hbefore, h => by
    rw [Metadata.ofBlock] at h
    rw [← Except.ok.inj h, Block.elements, List.append_nil]
    exact hbefore
  | .text _ :: rest, _, _, _, hbefore, h => by
    rw [Metadata.ofBlock] at h
    exact Metadata.collects_of_ofBlock rest hbefore h
  | .element name arguments :: rest, elements, before, metadata, hbefore, h => by
    obtain ⟨argument, value, rfl, hvalue, hrest⟩ := Metadata.ofBlock_element.1 h
    have hargument := MetadataValue.standsFor_of_ofBlock argument argument rfl hvalue
    have hadded : Metadata.Collects (elements ++ [(name, [argument])])
        (Entries.insert name value before) := hbefore.append (.singleton name hargument)
    rw [Block.elements, List.append_cons]
    exact Metadata.collects_of_ofBlock rest hadded hrest

theorem MetadataValue.standsFor_of_ofBlock (whole : Block) : ∀ (b : Block) {value : MetadataValue},
    whole.elements = b.elements → MetadataValue.ofBlock whole b = .ok value →
      MetadataValue.StandsFor whole value
  | [], _, hwhole, h => by
    rw [MetadataValue.ofBlock] at h
    rw [← Except.ok.inj h]
    exact .text hwhole
  | .text _ :: rest, _, hwhole, h => by
    rw [MetadataValue.ofBlock] at h
    exact MetadataValue.standsFor_of_ofBlock whole rest hwhole h
  | .element name arguments :: rest, value, hwhole, h => by
    obtain ⟨argument, entries, rfl, rfl, hentries, rfl⟩ := MetadataValue.ofBlock_element.1 h
    exact .dictionary hwhole (Metadata.collects_of_ofBlock argument .empty hentries)

end

namespace Document

/-- The text and the metadata of a document that some more nodes extend. -/
theorem collects_of_extend {b : Block} {before d : Document}
    {elements : List (String × List Block)} (h : Document.extend before b = .ok d)
    (hbefore : Metadata.Collects elements before.metadata) :
    d.text = before.text ++ b.textContent ∧
      Metadata.Collects (elements ++ b.metadataEntries) d.metadata := by
  induction b generalizing before elements with
  | nil =>
    obtain rfl := Except.ok.inj h
    simpa [Block.textContent, Block.metadataEntries, Block.elements] using hbefore
  | cons node rest ih =>
    cases node with
    | text s =>
      rw [Document.extend] at h
      obtain ⟨htext, hmetadata⟩ := ih h hbefore
      exact ⟨by simpa [Block.textContent, String.append_assoc] using htext, hmetadata⟩
    | element name arguments =>
      obtain ⟨argument, entries, rfl, rfl, hentries, hrest⟩ := Document.extend_element.1 h
      have hargument : Metadata.Collects argument.elements entries :=
        Metadata.collects_of_ofBlock argument .empty hentries
      obtain ⟨htext, hmetadata⟩ := ih hrest (hbefore.append hargument)
      refine ⟨htext, ?_⟩
      simpa [Block.metadataEntries, Block.elements] using hmetadata

/-- **The metadata of a document are its last entries.**  The text of a document is that of its
    direct text nodes.  Its metadata, and no others, have the names of all entries in its elements
    named `metadata`, and for a name the value of the last entry of that name among all of these:
    the trimmed text of its argument, or the dictionary of the last entries in it. -/
theorem lastEntries_of_ofBlock {b : Block} {d : Document} (h : Document.ofBlock b = .ok d) :
    d.text = b.textContent ∧
      ∀ metadata, Metadata.Collects b.metadataEntries metadata ↔ metadata = d.metadata := by
  obtain ⟨htext, hmetadata⟩ := collects_of_extend h Metadata.Collects.empty
  rw [List.nil_append] at hmetadata
  refine ⟨by simpa using htext, fun metadata => ⟨fun hother => hother.unique hmetadata, ?_⟩⟩
  rintro rfl
  exact hmetadata

/-- A dictionary that a text replaces, which is replaced by another dictionary in its turn. -/
theorem lastEntries_of_ofBlock_replaced :
    let b : Block := [.text "p", .element "metadata" [[.element "a" [[.element "dict"
        [[.element "x" [[]]]]]], .element "a" [[.text " 1"]]]], .text "q",
      .element "metadata" [[.element "a" [[.element "dict" [[.element "y" [[]],
        .element "y" [[.text "2"]]]]]]]]]
    let d : Document := ⟨"pq", [("a", .dictionary [("y", .text "2")])]⟩
    Document.ofBlock b = .ok d ∧ d.text = b.textContent ∧
      ∀ metadata, Metadata.Collects b.metadataEntries metadata ↔ metadata = d.metadata := by
  intro b d
  have hd : Document.ofBlock b = .ok d := by
    have htrim : Text.trim "2" = "2" := by decide +kernel
    simp [b, d, Document.ofBlock, Document.extend, Metadata.ofBlock, MetadataValue.ofBlock,
      Block.textContent, Entries.insert, Entries.insertAll, htrim, bind, Except.bind, pure,
      Except.pure]
  exact ⟨hd, lastEntries_of_ofBlock hd⟩

end Document

end BraceMarkup
