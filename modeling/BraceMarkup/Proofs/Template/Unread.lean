/-
  Bindings that nobody reads.

  Every name that an evaluation looks up is spelled by an argument, as it is
  written or less its line breaks.  A binding of a name that no argument spells
  plays no part: neither in the document, nor in the templates and deferred
  blocks that its evaluation comes to.

  * `Value.deferredBlocks`: the deferred blocks in a value, at any depth;
  * `Block.Avoids`, `Value.Avoids`, `Environment.Avoids`: no argument spells a
    name;
  * `Environment.AgreeOn`: some names stand for the same in two environments;
  * `Lockstep.unread`: two evaluations in environments that agree on all names
    but one;
  * `Engine.evaluate_unread`: **a binding that nobody reads has no influence**.
-/
import BraceMarkup.Proofs.Block.Arguments
import BraceMarkup.Proofs.Template.Lockstep
import Mathlib.Control.Monad.Basic

namespace BraceMarkup

open Evaluation

/-! ## Names that no argument spells -/

/-- No argument in a block spells a name, neither as it is nor less its line breaks. -/
def Block.Avoids (x : String) (b : Block) : Prop :=
  ∀ argument ∈ b.allArguments,
    bindingName argument ≠ x ∧ bindingName (argument.mapText Text.removeBreaks) ≠ x

mutual

/-- The deferred blocks in a value, at any depth. -/
def Value.deferredBlocks : Value → List Block
  | .deferred b => [b]
  | .list items => Value.deferredBlocksIn items
  | _ => []

/-- The deferred blocks in some values, at any depth. -/
def Value.deferredBlocksIn : List Value → List Block
  | [] => []
  | item :: rest => item.deferredBlocks ++ Value.deferredBlocksIn rest

end

/-- The deferred blocks in an item are deferred blocks in its list. -/
theorem Value.deferredBlocks_subset {items : List Value} {item : Value} (hi : item ∈ items) :
    item.deferredBlocks ⊆ (Value.list items).deferredBlocks := by
  show item.deferredBlocks ⊆ Value.deferredBlocksIn items
  induction items with
  | nil => cases hi
  | cons first rest ih =>
    rcases List.mem_cons.1 hi with rfl | hi
    · exact List.subset_append_left _ _
    · exact List.Subset.trans (ih hi) (List.subset_append_right _ _)

/-- No argument in the deferred blocks in a value spells a name. -/
def Value.Avoids (x : String) (v : Value) : Prop := ∀ b ∈ v.deferredBlocks, b.Avoids x

/-- No argument in what other names stand for spells a name.  What it stands for itself plays no
    part. -/
structure Environment.Avoids (x : String) (env : Environment) : Prop where
  values : ∀ name value, name ≠ x → env.values.get? name = some value → value.Avoids x
  templates : ∀ name (b : Block), name ≠ x → env.templates.get? name = some b → b.Avoids x

theorem Block.Avoids.element {x : String} {b : Block} (h : b.Avoids x) {name : String}
    {arguments : List Block} (hm : (name, arguments) ∈ b.elements) :
    Block.Avoids x [.element name arguments] :=
  fun argument ha => h argument (Block.allArguments_subset hm ha)

/-- The arguments of an element do not spell the name, and no argument in them does. -/
theorem Block.Avoids.argument {x name : String} {arguments : List Block}
    (h : Block.Avoids x [.element name arguments]) {b : Block} (hb : b ∈ arguments) :
    bindingName b ≠ x ∧ b.Avoids x := by
  rw [Block.Avoids, Block.allArguments_element] at h
  constructor
  · exact (h b (List.mem_append_left _ hb)).1
  · intro argument ha
    exact h argument (List.mem_append_right _ (List.mem_flatMap.2 ⟨b, hb, ha⟩))

/-- Nor does an argument in a block less its line breaks. -/
theorem Block.Avoids.inlined {x : String} {b : Block} (h : b.Avoids x) :
    (b.mapText Text.removeBreaks).Avoids x := by
  intro argument ha
  rw [Block.allArguments_mapText] at ha
  obtain ⟨original, ho, rfl⟩ := List.mem_map.1 ha
  refine ⟨(h original ho).2, ?_⟩
  rw [bindingName, Block.mapText_mapText Text.removeBreaks_removeBreaks]
  exact (h original ho).2

theorem Value.Avoids.item {x : String} {items : List Value} (h : (Value.list items).Avoids x)
    {item : Value} (hi : item ∈ items) : item.Avoids x :=
  fun b hb => h b (Value.deferredBlocks_subset hi hb)

/-! ## Environments that agree -/

/-- The names in `p` stand for the same in two environments. -/
structure Environment.AgreeOn (p : String → Prop) (E F : Environment) : Prop where
  values : ∀ name, p name → E.values.get? name = F.values.get? name
  templates : ∀ name, p name → E.templates.get? name = F.templates.get? name

namespace Environment

variable {p : String → Prop} {E F G : Environment} {name : String}

theorem AgreeOn.refl (p : String → Prop) (E : Environment) : E.AgreeOn p E :=
  ⟨fun _ _ => rfl, fun _ _ => rfl⟩

theorem AgreeOn.symm (h : E.AgreeOn p F) : F.AgreeOn p E :=
  ⟨fun name hn => (h.values name hn).symm, fun name hn => (h.templates name hn).symm⟩

theorem AgreeOn.trans (h : E.AgreeOn p F) (hg : F.AgreeOn p G) : E.AgreeOn p G :=
  ⟨fun name hn => (h.values name hn).trans (hg.values name hn),
    fun name hn => (h.templates name hn).trans (hg.templates name hn)⟩

theorem AgreeOn.setVariable (h : E.AgreeOn p F) (name : String) (v : Value) :
    (E.setVariable name v).AgreeOn p (F.setVariable name v) := by
  refine ⟨fun other ho => ?_, h.templates⟩
  simp only [Environment.setVariable, Bindings.get?_set, h.values other ho]

theorem AgreeOn.setTemplate (h : E.AgreeOn p F) (name : String) (b : Block) :
    (E.setTemplate name b).AgreeOn p (F.setTemplate name b) := by
  refine ⟨h.values, fun other ho => ?_⟩
  simp only [Environment.setTemplate, Bindings.get?_set, h.templates other ho]

/-- A binding leaves every other name alone. -/
theorem setVariable_agreeOn (hn : ¬ p name) (v : Value) (E : Environment) :
    (E.setVariable name v).AgreeOn p E := by
  refine ⟨fun other ho => ?_, fun _ _ => rfl⟩
  have hne : name ≠ other := fun h => hn (h ▸ ho)
  simp only [Environment.setVariable, Bindings.get?_set, if_neg hne]

theorem setTemplate_agreeOn (hn : ¬ p name) (b : Block) (E : Environment) :
    (E.setTemplate name b).AgreeOn p E := by
  refine ⟨fun _ _ => rfl, fun other ho => ?_⟩
  have hne : name ≠ other := fun h => hn (h ▸ ho)
  simp only [Environment.setTemplate, Bindings.get?_set, if_neg hne]

theorem Avoids.setVariable {x : String} (h : E.Avoids x) {v : Value} (hv : v.Avoids x) :
    (E.setVariable name v).Avoids x := by
  refine ⟨fun other w ho hw => ?_, h.templates⟩
  simp only [Environment.setVariable, Bindings.get?_set] at hw
  split at hw
  · cases hw
    exact hv
  · exact h.values other w ho hw

theorem Avoids.setTemplate {x : String} (h : E.Avoids x) {b : Block} (hb : b.Avoids x) :
    (E.setTemplate name b).Avoids x := by
  refine ⟨h.values, fun other c ho hc => ?_⟩
  simp only [Environment.setTemplate, Bindings.get?_set] at hc
  split at hc
  · cases hc
    exact hb
  · exact h.templates other c ho hc

theorem Avoids.congr {x : String} (h : E.Avoids x) (hE : E.AgreeOn (· ≠ x) F) : F.Avoids x :=
  ⟨fun name v hn hv => h.values name v hn ((hE.values name hn).trans hv),
    fun name b hn hb => h.templates name b hn ((hE.templates name hn).trans hb)⟩

/-- Environments that agree on all names but `x`, which stands in them for what it stood for in
    `E₀` and `F₀`, and which nothing in them spells. -/
structure Unread (x : String) (E₀ F₀ E F : Environment) : Prop where
  others : E.AgreeOn (· ≠ x) F
  avoids : E.Avoids x
  left : E.AgreeOn (· = x) E₀
  right : F.AgreeOn (· = x) F₀

variable {x : String} {E₀ F₀ : Environment}

theorem Unread.setVariable (h : Unread x E₀ F₀ E F) (hn : name ≠ x) {v : Value}
    (hv : v.Avoids x) : Unread x E₀ F₀ (E.setVariable name v) (F.setVariable name v) where
  others := h.others.setVariable name v
  avoids := h.avoids.setVariable hv
  left := (setVariable_agreeOn (p := (· = x)) hn v E).trans h.left
  right := (setVariable_agreeOn (p := (· = x)) hn v F).trans h.right

theorem Unread.setTemplate (h : Unread x E₀ F₀ E F) (hn : name ≠ x) {b : Block}
    (hb : b.Avoids x) : Unread x E₀ F₀ (E.setTemplate name b) (F.setTemplate name b) where
  others := h.others.setTemplate name b
  avoids := h.avoids.setTemplate hb
  left := (setTemplate_agreeOn (p := (· = x)) hn b E).trans h.left
  right := (setTemplate_agreeOn (p := (· = x)) hn b F).trans h.right

end Environment

/-! ## The comparison -/

/-- Two evaluations in environments that agree on all names but `x`, which nothing spells.  Nothing
    is said of the second one if the first goes on without end. -/
def Lockstep.unread (x : String) (E₀ F₀ : Environment) : Lockstep where
  environments := Environment.Unread x E₀ F₀
  name n := n ≠ x
  element _ name arguments := Block.Avoids x [.element name arguments]
  value v := v.Avoids x
  item v := v.Avoids x
  failure _ := True
  excused f := f = .endless

section
variable {x : String} {E₀ F₀ : Environment}

theorem Lockstep.unread_block {b : Block} (h : b.Avoids x) (a : Nat) :
    (Lockstep.unread x E₀ F₀).block a b := fun _ _ hm => h.element hm

/-- All names that are looked up and bound are spelled by arguments. -/
theorem Lockstep.unread_laws {c : Config} (hc : c.loader = none) :
    (Lockstep.unread x E₀ F₀).Laws 0 c c where
  trimSpaces := rfl
  lookupVariable {E F name} hE hn := by
    refine ⟨hE.others.values name hn, ?_⟩
    cases hv : E.values.get? name with
    | none => trivial
    | some v => exact hE.avoids.values name v hn hv
  lookupTemplate {E F name} hE hn := by
    refine ⟨hE.others.templates name hn, ?_⟩
    cases hb : E.templates.get? name with
    | none => trivial
    | some b => exact unread_block (hE.avoids.templates name b hn hb)
  arguments he hb := ⟨(he.argument hb).1, unread_block (he.argument hb).2 _⟩
  inlined he _ := unread_block (he.argument (by simp)).2.inlined _
  define he _ hv _ hE := hE.setVariable (he.argument (by simp)).1 hv
  foreach he _ hv hE := hE.setVariable (he.argument (by simp)).1 hv
  template he _ hE := hE.setTemplate (he.argument (by simp)).1 (he.argument (by simp)).2
  importModule _ _ := by rw [hc]; exact .none
  text _ := by rintro b ⟨⟩
  number _ := by rintro b ⟨⟩
  boolean _ := by rintro b ⟨⟩
  items h hi := h.item hi
  value_of_item h := h
  deferred h := unread_block (h _ (by simp [Value.deferredBlocks])) _
  endless _ := .inl rfl
  plain _ := trivial
  imported _ := trivial
  excused_imported h := by cases h
  limit _ _ := .inr ⟨rfl, trivial⟩

theorem Lockstep.unread_topLevel {c : Config} (hc : c.loader = none) :
    (Lockstep.unread x E₀ F₀).Levels 0 0 (Engine.topLevel c) (Engine.topLevel c) := by
  have hn : maxActive ≤ 0 + maxActive := by omega
  exact (unread_laws hc).level rfl hn hn (.inl rfl)

end

/-! ## Two runs -/

/-- A change of environments that binds `x`: every other name stays, and what `x` stands for behind
    it depends at most on what it stood for. -/
structure Environment.Rebinds (x : String) (bind : Environment → Environment) : Prop where
  others (E : Environment) : (bind E).AgreeOn (· ≠ x) E
  given {E F : Environment} : E.AgreeOn (· = x) F → (bind E).AgreeOn (· = x) (bind F)

namespace Environment

variable {x : String} {bind : Environment → Environment}

theorem rebinds_setVariable (x : String) (v : Value) : Rebinds x (·.setVariable x v) where
  others E := setVariable_agreeOn (fun h => h rfl) v E
  given h := h.setVariable x v

theorem rebinds_setTemplate (x : String) (b : Block) : Rebinds x (·.setTemplate x b) where
  others E := setTemplate_agreeOn (fun h => h rfl) b E
  given h := h.setTemplate x b

/-- Environments that agree on `x` and on all other names. -/
theorem AgreeOn.of_others {E F : Environment} (ho : E.AgreeOn (· ≠ x) F)
    (hx : E.AgreeOn (· = x) F) : E.AgreeOn (fun _ => True) F := by
  constructor
  · intro name _
    by_cases hn : name = x
    · exact hx.values name hn
    · exact ho.values name hn
  · intro name _
    by_cases hn : name = x
    · exact hx.templates name hn
    · exact ho.templates name hn

/-- The second environment is the first one with `x` bound in it. -/
theorem Unread.agreeOn {E₀ E F : Environment} (h : Unread x E₀ (bind E₀) E F)
    (hb : Rebinds x bind) : F.AgreeOn (fun _ => True) (bind E) :=
  .of_others (h.others.symm.trans (hb.others E).symm) (h.right.trans (hb.given h.left).symm)

end Environment

/-- Two outcomes that compare both ways are the same but for what `x` stands for. -/
theorem Lockstep.unread_outcomes {α : Type} {P : α → Prop} {x : String} {E₀ F₀ : Environment}
    {o o' : Except Failure α × EvaluationState}
    (h : (Lockstep.unread x E₀ F₀).Outcomes 0 0 P o o')
    (h' : (Lockstep.unread x F₀ E₀).Outcomes 0 0 P o' o) :
    o'.1 = o.1 ∧ (o.1 ≠ .error .endless →
      Environment.Unread x E₀ F₀ o.2.environment o'.2.environment) := by
  cases h with
  | ok _ hE => exact ⟨rfl, fun _ => hE⟩
  | error _ hE => exact ⟨rfl, fun _ => hE⟩
  | excused hf =>
    obtain rfl : _ = Failure.endless := hf
    refine ⟨?_, fun hne => absurd rfl hne⟩
    -- the second evaluation has no end either, as it compares with the first
    cases h' with
    | error => rfl
    | excused hf' => rw [show _ = Failure.endless from hf']

namespace Engine

/-- Two runs that end alike: they yield the same value or fail with the same failure and, unless
    they go on without end, every name stands in the second session for what it stands for in the
    first one behind the change `bind`. -/
def EndAlike {α : Type} (bind : Environment → Environment) (p q : Except Failure α × Engine) :
    Prop :=
  q.1 = p.1 ∧
    (p.1 ≠ .error .endless → q.2.environment.AgreeOn (fun _ => True) (bind p.2.environment))

/-- The change `bind` has no influence on the evaluation of a block and of its text. -/
def Unaffected (e : Engine) (bind : Environment → Environment) (b : Block) : Prop :=
  let other : Engine := { e with environment := bind e.environment }
  EndAlike bind (e.evaluateBlock b) (other.evaluateBlock b) ∧
    EndAlike bind (e.evaluate b) (other.evaluate b)

section
variable {e other : Engine} {x : String} {bind : Environment → Environment}

theorem endAlike_run {α : Type} {y : Evaluation α}
    (hy : ∀ E₀ F₀, (Lockstep.unread x E₀ F₀).Alike 0 0 (fun _ => True) y y)
    (he : e.environment.Avoids x) (hb : Environment.Rebinds x bind)
    (ho : other.environment = bind e.environment) : EndAlike bind (e.run y) (other.run y) := by
  have hothers : other.environment.AgreeOn (· ≠ x) e.environment := ho ▸ hb.others e.environment
  obtain ⟨hresult, henv⟩ := Lockstep.unread_outcomes
    (hy e.environment other.environment _ _ ⟨hothers.symm, he, .refl _ _, .refl _ _⟩)
    (hy other.environment e.environment _ _
      ⟨hothers, he.congr hothers.symm, .refl _ _, .refl _ _⟩)
  refine ⟨hresult, fun hne => ?_⟩
  have henv := henv hne
  rw [ho] at henv
  rw [run, ho]
  exact henv.agreeOn hb

theorem endAlike_evaluate (hc : e.config.loader = none) (he : e.environment.Avoids x)
    (hb : Environment.Rebinds x bind) (hconfig : other.config = e.config)
    (ho : other.environment = bind e.environment) {b : Block} (hx : b.Avoids x) :
    EndAlike bind (e.evaluateBlock b) (other.evaluateBlock b) ∧
      EndAlike bind (e.evaluate b) (other.evaluate b) := by
  simp only [evaluateBlock, evaluate, hconfig]
  constructor
  · refine endAlike_run (fun E₀ F₀ => ?_) he hb ho
    exact ((Lockstep.unread_topLevel hc).block (Lockstep.unread_block hx 0)).mono
      fun _ _ => trivial
  · refine endAlike_run (fun E₀ F₀ => ?_) he hb ho
    exact (Lockstep.unread_topLevel hc).blockText (Lockstep.unread_block hx 0)

end

/-- **A binding that nobody reads has no influence.**  In a session without modules, where no
    argument in the document and in what other names stand for spells `x`, it makes no difference
    whether `x` is bound to a value, or to a block as a template, in place of what it stood for. -/
theorem evaluate_unread {e : Engine} (hc : e.config.loader = none) {x : String}
    (he : e.environment.Avoids x) {b : Block} (hx : b.Avoids x) :
    (∀ v, e.Unaffected (·.setVariable x v) b) ∧ ∀ t, e.Unaffected (·.setTemplate x t) b := by
  constructor
  · intro v
    refine endAlike_evaluate hc he (Environment.rebinds_setVariable x v) ?_ ?_ hx <;> rfl
  · intro t
    refine endAlike_evaluate hc he (Environment.rebinds_setTemplate x t) ?_ ?_ hx <;> rfl

/-- A name that is spelled with a line break in it, in an inlined block, and a deferred block behind
    it. -/
theorem evaluate_unread_inlined :
    let e : Engine := ⟨.default, ⟨[("y", .deferred [.text "p", .element "char" [[.text "tab"]]])],
      []⟩⟩
    let b : Block := [.text "v: ", .element "inline" [[.element "" [[.text "\n  y"]]]]]
    let other : Engine := ⟨.default, e.environment.setVariable "x" (.text "q")⟩
    e.config.loader = none ∧ e.environment.Avoids "x" ∧ b.Avoids "x" ∧
      (other.evaluate b).1 = .ok "v: p\t" := by
  intro e b other
  have hy : Block.Avoids "x" [.text "p", .element "char" [[.text "tab"]]] := by
    unfold Block.Avoids
    decide +kernel
  have he : e.environment.Avoids "x" := by
    refine ⟨fun name value _ hv => ?_, by rintro name b - ⟨⟩⟩
    simp only [e, Bindings.get?] at hv
    split at hv <;> cases hv
    simpa [Value.Avoids, Value.deferredBlocks] using hy
  have hx : b.Avoids "x" := by
    unfold Block.Avoids
    decide +kernel
  refine ⟨rfl, he, hx, ?_⟩
  rw [((evaluate_unread rfl he hx).1 (.text "q")).2.1]
  decide +kernel

end Engine

end BraceMarkup
