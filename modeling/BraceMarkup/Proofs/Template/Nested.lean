/-
  Documents within the limit of active elements.

  Where nothing is bound that holds elements, neither templates nor deferred
  blocks, an evaluation only ever goes down into the arguments of the element
  that it is at.  So no more elements are active than are nested in the
  document, and a document that can be read is nested no deeper than elements
  may be active.

  * `Block.BindsNoTemplate`: no element of a block binds a template;
  * `Lockstep.nested`: an evaluation and itself, where the nesting of what is
    left of the document fits below the limit;
  * `Lockstep.nested_laws`: every directive keeps to the arguments of its
    element;
  * `Engine.settled_of_nesting`: a document is evaluated without coming to the
    limit if its nesting allows that;
  * `Engine.settled_of_ofSource`: **a document that was read never comes to the
    limit** by itself.
-/
import BraceMarkup.Proofs.Source.Levels
import BraceMarkup.Proofs.Template.Limit
import BraceMarkup.Proofs.Template.Termination

namespace BraceMarkup

/-! ## Nesting -/

theorem Block.nesting_element_le {b : Block} {name : String} {arguments : List Block}
    (h : (name, arguments) ∈ b.elements) :
    (Node.element name arguments).nesting ≤ b.nesting := by
  induction b with
  | nil => cases h
  | cons node rest ih =>
    cases node with
    | text s => exact Nat.le_trans (ih h) (Nat.le_max_right _ _)
    | element other others =>
      rcases List.mem_cons.1 h with heq | h
      · cases heq
        exact Nat.le_max_left _ _
      · exact Nat.le_trans (ih h) (Nat.le_max_right _ _)

theorem Node.nesting_argument_le {arguments : List Block} {b : Block} (h : b ∈ arguments) :
    b.nesting ≤ Node.nestingArguments arguments := by
  induction arguments with
  | nil => cases h
  | cons first rest ih =>
    rcases List.mem_cons.1 h with rfl | h
    · exact Nat.le_max_left _ _
    · exact Nat.le_trans (ih h) (Nat.le_max_right _ _)

section
variable (f : String → String)

mutual

theorem Node.nesting_mapText : ∀ node : Node, (node.mapText f).nesting = node.nesting
  | .text _ => rfl
  | .element _ arguments => by
    rw [Node.mapText, Node.nesting, Node.nesting, Node.nestingArguments_mapText arguments]

/-- A rewritten block is nested as deep as the block. -/
theorem Block.nesting_mapText : ∀ b : Block, Block.nesting (Block.mapText f b) = b.nesting
  | [] => rfl
  | node :: rest => by
    rw [Block.mapText, Block.nesting, Block.nesting, Node.nesting_mapText node,
      Block.nesting_mapText rest]

theorem Node.nestingArguments_mapText : ∀ arguments : List Block,
    Node.nestingArguments (Node.mapTextArguments f arguments) = Node.nestingArguments arguments
  | [] => rfl
  | b :: rest => by
    rw [Node.mapTextArguments, Node.nestingArguments, Node.nestingArguments,
      Block.nesting_mapText b, Node.nestingArguments_mapText rest]

end

end

/-! ## Blocks that bind no template -/

/-- No element of the block binds a template, at any depth. -/
def Block.BindsNoTemplate (b : Block) : Prop :=
  ∀ arguments, Node.element "template" arguments ∉ b.preorder

namespace Block.BindsNoTemplate

variable {b : Block} {name : String} {arguments : List Block}

theorem iff_elementNames : b.BindsNoTemplate ↔ "template" ∉ b.elementNames := by
  rw [Block.mem_elementNames, not_exists, Block.BindsNoTemplate]

theorem element (h : b.BindsNoTemplate) (hm : (name, arguments) ∈ b.elements) :
    Block.BindsNoTemplate [.element name arguments] :=
  iff_elementNames.2 fun hn => iff_elementNames.1 h (Block.elementNames_subset hm hn)

theorem argument (h : Block.BindsNoTemplate [.element name arguments]) (hb : b ∈ arguments) :
    b.BindsNoTemplate :=
  iff_elementNames.2 fun hn => iff_elementNames.1 h (Block.elementNames_argument_subset hb hn)

theorem name_ne (h : Block.BindsNoTemplate [.element name arguments]) : name ≠ "template" := by
  rintro rfl
  exact iff_elementNames.1 h (Block.mem_elementNames_self _ _)

theorem mapText (h : b.BindsNoTemplate) (f : String → String) :
    (Block.mapText f b).BindsNoTemplate := by
  rw [iff_elementNames, Block.elementNames_mapText]
  exact iff_elementNames.1 h

end Block.BindsNoTemplate

theorem Directive.name_of_template {name : String} (h : Directive.ofName? name = some .template) :
    name = "template" := by
  unfold Directive.ofName? at h
  split at h <;> first | rfl | cases h

/-! ## The comparison -/

/-- Nothing is bound that holds elements: no template, and no deferred block. -/
structure Environment.Inert (E : Environment) : Prop where
  values : ∀ name v, E.values.get? name = some v → v.Plain
  templates : E.templates = []

theorem Environment.Inert.setVariable {E : Environment} (h : E.Inert) {name : String} {v : Value}
    (hv : v.Plain) : (E.setVariable name v).Inert := by
  refine ⟨fun other w hw => ?_, h.templates⟩
  simp only [Environment.setVariable, Bindings.get?_set] at hw
  split at hw
  · cases hw
    exact hv
  · exact h.values other w hw

/-- An evaluation and itself, where nothing is bound that holds elements.  The elements that are
    active and those that are nested in the next one are not too many together. -/
def Lockstep.nested : Lockstep where
  environments E F := E = F ∧ E.Inert
  name _ := True
  element a name arguments :=
    a + (Node.element name arguments).nesting ≤ maxActive ∧
      Block.BindsNoTemplate [.element name arguments]
  value v := v.Plain
  item v := v.Plain
  failure f := ¬ f.GivenUp
  excused _ := False

namespace Lockstep

theorem nested_block {a : Nat} {b : Block} (hn : a + b.nesting ≤ maxActive)
    (hb : b.BindsNoTemplate) : nested.block a b := by
  intro name arguments hm
  have hle := Block.nesting_element_le hm
  exact ⟨by omega, hb.element hm⟩

/-- Inside of an element there is room for its arguments. -/
theorem nested_argument {a : Nat} {name : String} {arguments : List Block} {b : Block}
    (h : nested.element a name arguments) (hb : b ∈ arguments) :
    a + 1 + b.nesting ≤ maxActive ∧ b.BindsNoTemplate := by
  obtain ⟨hn, hno⟩ := h
  have hle := Node.nesting_argument_le hb
  rw [Node.nesting] at hn
  exact ⟨by omega, hno.argument hb⟩

/-- **Every directive keeps to the arguments of its element.** -/
theorem nested_laws {c : Config} (hc : c.loader = none) : nested.Laws 0 c c where
  trimSpaces := rfl
  lookupVariable {E F name} hE _ := by
    obtain ⟨rfl, hE⟩ := hE
    refine ⟨rfl, ?_⟩
    cases hv : E.values.get? name with
    | none =>
      rintro ⟨_, ⟨⟩⟩
    | some v => exact hE.values name v hv
  lookupTemplate {E F name} hE _ := by
    obtain ⟨rfl, hE⟩ := hE
    refine ⟨rfl, ?_⟩
    rw [hE.templates]
    rintro ⟨_, ⟨⟩⟩
  arguments he hb := by
    obtain ⟨hn, hno⟩ := nested_argument he hb
    exact ⟨trivial, nested_block hn hno⟩
  inlined he _ := by
    obtain ⟨hn, hno⟩ := nested_argument he (List.mem_singleton_self _)
    exact nested_block (by rwa [Block.nesting_mapText]) (hno.mapText _)
  define _ _ hv _ hE := by
    obtain ⟨rfl, hE⟩ := hE
    exact ⟨rfl, hE.setVariable hv⟩
  foreach _ _ hv hE := by
    obtain ⟨rfl, hE⟩ := hE
    exact ⟨rfl, hE.setVariable hv⟩
  template he hd _ := absurd (Directive.name_of_template hd) he.2.name_ne
  importModule _ _ := by
    rw [hc]
    exact .none
  text _ := trivial
  number _ := trivial
  boolean _ := trivial
  items h hi := Value.PlainItems.mem h hi
  value_of_item h := h
  deferred h := h.elim
  endless h := h.elim
  plain h := by cases h <;> rintro ⟨_, ⟨⟩⟩
  imported h := h
  excused_imported h := h.elim
  limit {a name arguments} he ha := by
    have hn := he.1
    rw [Node.nesting] at hn
    omega

/-- A computation that compares with itself yields a value or fails without coming to the limit. -/
theorem Alike.settled {α : Type} {P : α → Prop} {x : Evaluation α} (h : nested.Alike 0 0 P x x)
    {e : Engine} (he : e.environment.Inert) : Settled (e.run x).1 := by
  have hx := h e.environment e.environment ⟨rfl, he⟩
  unfold Engine.run
  generalize x.outcome ⟨e.environment, 0⟩ = o at hx ⊢
  cases hx with
  | ok => rintro f ⟨⟩
  | error hf =>
    rintro f ⟨⟩
    exact hf
  | excused hf => exact hf.elim

end Lockstep

/-! ## Documents -/

namespace Engine

/-- Where nothing is bound that holds elements and nothing can be imported, a document comes to the
    limit of active elements only if it is nested so deep. -/
theorem settled_of_nesting {e : Engine} (hloader : e.config.loader = none)
    (he : e.environment.Inert) {b : Block} (hn : b.nesting ≤ maxActive) (hb : b.BindsNoTemplate) :
    Settled (e.evaluateBlock b).1 ∧ Settled (e.evaluate b).1 := by
  have hlevels : Lockstep.nested.Levels 0 0 (topLevel e.config) (topLevel e.config) :=
    (Lockstep.nested_laws hloader).level rfl (Nat.le_add_left _ _) (Nat.le_add_left _ _) (.inl rfl)
  have hblock : Lockstep.nested.block 0 b := Lockstep.nested_block (by omega) hb
  exact ⟨(hlevels.block hblock).settled he, (hlevels.blockText hblock).settled he⟩

/-- **A document that was read never comes to the limit by itself.**  Let no element of it bind a
    template.  Where no template and no deferred block is bound and nothing can be imported, it is
    evaluated to a value, or to a fault that is not due to the limit of active elements, and so is
    its text. -/
theorem settled_of_ofSource {source : String} {b : Block} (hb : Block.ofSource source = .ok b)
    (hno : b.BindsNoTemplate) {e : Engine} (hloader : e.config.loader = none)
    (he : e.environment.Inert) :
    Settled (e.evaluateBlock b).1 ∧ Settled (e.evaluate b).1 :=
  settled_of_nesting hloader he (Block.nesting_of_ofSource hb) hno

/-- A loop over a list, with a condition and an inlined block in its body. -/
theorem settled_of_ofSource_loop :
    let source :=
      "#foreach\x7bi\x7d\x7bxs\x7d\x7b#if\x7btrue\x7d\x7b#inline\x7b#\x7bi\x7d,\x7d\x7d\x7d"
    let body : Block := [.element "inline" [[.element "" [[.text "i"]], .text ","]]]
    let b : Block :=
      [.element "foreach" [[.text "i"], [.text "xs"], [.element "if" [[.text "true"], body]]]]
    let e : Engine := ⟨.default, ⟨[("xs", .list [.text "a", .list [.boolean true]])], []⟩⟩
    (Block.ofSource source = .ok b ∧ b.BindsNoTemplate ∧ e.config.loader = none ∧
      e.environment.Inert) ∧
      Settled (e.evaluateBlock b).1 ∧ Settled (e.evaluate b).1 := by
  intro source body b e
  have hb : Block.ofSource source = .ok b := by decide +kernel
  have hno : b.BindsNoTemplate := by
    intro arguments h
    simp [b, body, Block.preorder, Node.preorder, Node.preorderArguments] at h
  have he : e.environment.Inert := by
    refine ⟨fun name v hv => ?_, rfl⟩
    simp only [e, Bindings.get?] at hv
    split at hv <;> cases hv
    exact ⟨trivial, ⟨trivial, trivial⟩, trivial⟩
  exact ⟨⟨hb, hno, rfl, he⟩, settled_of_ofSource hb hno rfl he⟩

end Engine

end BraceMarkup
