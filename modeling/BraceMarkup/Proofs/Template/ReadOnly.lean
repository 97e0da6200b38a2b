/-
  Documents that bind nothing.

  Only four directives bind names.  Where none of them stands in a document,
  and none in the templates and deferred blocks that are bound, an evaluation
  reads the environment and leaves it as it is, whether it yields a value or
  fails.  What such a document is evaluated to then does not depend on what the
  session was asked for before.

  * `bindingDirectives`, `Directive.binds`: the directives that bind, and their
    names;
  * `Block.BindsNothing`, `Value.BindsNothing`, `Environment.BindsNothing`: none
    of them in a block, in the deferred blocks of a value, in what is bound;
  * `Lockstep.reading`: an evaluation and itself, in an environment that does
    not change;
  * `Engine.answer`, `Engine.answers`: what a session answers to one query, and
    to some one after the other;
  * `Engine.answers_of_bindsNothing`: **documents that bind nothing leave a
    session as it is**, and each gets the answer it gets alone.
-/
import BraceMarkup.Proofs.Template.Session
import BraceMarkup.Proofs.Template.Unread

namespace BraceMarkup

/-! ## Directives that bind -/

/-- The names of the directives that bind something. -/
def bindingDirectives : List String := ["define", "template", "foreach", "import"]

/-- Whether a directive binds something. -/
def Directive.binds : Directive → Bool
  | importModule | template | define | foreach => true
  | _ => false

theorem Directive.mem_bindingDirectives {name : String} {d : Directive}
    (h : Directive.ofName? name = some d) (hd : d.binds = true) : name ∈ bindingDirectives := by
  unfold Directive.ofName? at h
  split at h <;> cases h <;> first | exact absurd hd Bool.false_ne_true | decide

/-- No element of the block binds anything, at any depth. -/
def Block.BindsNothing (b : Block) : Prop := ∀ name ∈ b.elementNames, name ∉ bindingDirectives

instance (b : Block) : Decidable b.BindsNothing := List.decidableBAll _ _

/-- No deferred block in a value binds anything, also in lists. -/
def Value.BindsNothing (v : Value) : Prop := ∀ b ∈ v.deferredBlocks, b.BindsNothing

/-- Nothing that is bound binds anything. -/
structure Environment.BindsNothing (E : Environment) : Prop where
  values : ∀ name v, E.values.get? name = some v → v.BindsNothing
  templates : ∀ name (b : Block), E.templates.get? name = some b → b.BindsNothing

namespace Block.BindsNothing

variable {b : Block} {name : String} {arguments : List Block}

theorem element (h : b.BindsNothing) (hm : (name, arguments) ∈ b.elements) :
    Block.BindsNothing [.element name arguments] :=
  fun other ho => h other (Block.elementNames_subset hm ho)

theorem argument (h : Block.BindsNothing [.element name arguments]) (hb : b ∈ arguments) :
    b.BindsNothing :=
  fun other ho => h other (Block.elementNames_argument_subset hb ho)

theorem mapText (h : b.BindsNothing) (f : String → String) :
    (Block.mapText f b).BindsNothing := by
  rw [Block.BindsNothing, Block.elementNames_mapText]
  exact h

theorem directive_ne (h : Block.BindsNothing [.element name arguments]) {d : Directive}
    (hd : d.binds = true) : Directive.ofName? name ≠ some d :=
  fun hname => h name (Block.mem_elementNames_self name arguments)
    (Directive.mem_bindingDirectives hname hd)

end Block.BindsNothing

/-! ## The comparison -/

/-- An evaluation and itself, where nothing that is evaluated binds anything.  The environment stays
    what it is. -/
def Lockstep.reading (E₀ : Environment) : Lockstep where
  environments E F := E = E₀ ∧ F = E₀
  name _ := True
  element _ name arguments := Block.BindsNothing [.element name arguments]
  value v := v.BindsNothing
  item v := v.BindsNothing
  failure _ := True
  excused _ := False

namespace Lockstep

variable {E₀ : Environment}

theorem reading_block {b : Block} (h : b.BindsNothing) (a : Nat) : (reading E₀).block a b :=
  fun _ _ hm => h.element hm

theorem reading_laws (h₀ : E₀.BindsNothing) (c : Config) : (reading E₀).Laws 0 c c where
  trimSpaces := rfl
  lookupVariable {E F name} hE _ := by
    obtain ⟨rfl, rfl⟩ := hE
    refine ⟨rfl, ?_⟩
    cases hv : F.values.get? name with
    | none => trivial
    | some v => exact h₀.values name v hv
  lookupTemplate {E F name} hE _ := by
    obtain ⟨rfl, rfl⟩ := hE
    refine ⟨rfl, ?_⟩
    cases hb : F.templates.get? name with
    | none => trivial
    | some b => exact reading_block (h₀.templates name b hb)
  arguments he hb := ⟨trivial, reading_block (he.argument hb) _⟩
  inlined he _ := reading_block ((he.argument (List.mem_singleton_self _)).mapText _) _
  define he hd _ _ _ := absurd hd (he.directive_ne rfl)
  foreach he hd _ _ := absurd hd (he.directive_ne rfl)
  template he hd _ := absurd hd (he.directive_ne rfl)
  importModule he hd := absurd hd (he.directive_ne rfl)
  text _ := by rintro b ⟨⟩
  number _ := by rintro b ⟨⟩
  boolean _ := by rintro b ⟨⟩
  items h hi := fun b hb => h b (Value.deferredBlocks_subset hi hb)
  value_of_item h := h
  deferred h := reading_block (h _ (by simp [Value.deferredBlocks])) _
  endless _ := .inr trivial
  plain _ := trivial
  imported _ := trivial
  excused_imported h := h.elim
  limit _ _ := .inr ⟨rfl, trivial⟩

/-- A computation that compares with itself leaves the session as it is. -/
theorem Alike.leaves {α : Type} {P : α → Prop} {x : Evaluation α} {e : Engine}
    (h : (reading e.environment).Alike 0 0 P x x) : (e.run x).2 = e := by
  have hx := h e.environment e.environment ⟨rfl, rfl⟩
  unfold Engine.run
  generalize x.outcome ⟨e.environment, 0⟩ = o at hx ⊢
  cases hx with
  | ok _ hE => rw [hE.1]
  | error _ hE => rw [hE.1]
  | excused hf => exact hf.elim

end Lockstep

/-! ## Sessions -/

/-- The block that a query is about. -/
def Query.block : Query → Block
  | .value b => b
  | .text b => b

/-- What a session answers to a query. -/
inductive Answer where
  | value (r : Except Failure (Option Value))
  | text (r : Except Failure String)

namespace Engine

/-- What a session answers to a query. -/
def answer (e : Engine) : Query → Answer
  | .value b => .value (e.evaluateBlock b).1
  | .text b => .text (e.evaluate b).1

/-- What a session answers to some queries, one after the other and answered or not. -/
def answers (e : Engine) : List Query → List Answer
  | [] => []
  | q :: rest => e.answer q :: (e.after q).answers rest

variable {e : Engine}

/-- A query about a block that binds nothing leaves the session as it is. -/
theorem after_of_bindsNothing (he : e.environment.BindsNothing) {q : Query}
    (hq : q.block.BindsNothing) : e.after q = e := by
  have hlevels : (Lockstep.reading e.environment).Levels 0 0 (topLevel e.config)
      (topLevel e.config) :=
    (Lockstep.reading_laws he e.config).level rfl (Nat.le_add_left _ _) (Nat.le_add_left _ _)
      (.inl rfl)
  cases q with
  | value b => exact (hlevels.block (Lockstep.reading_block hq 0)).leaves
  | text b => exact (hlevels.blockText (Lockstep.reading_block hq 0)).leaves

/-- So each of several queries gets the answer that it gets alone. -/
theorem answers_eq_map (he : e.environment.BindsNothing) {queries : List Query}
    (hq : ∀ q ∈ queries, q.block.BindsNothing) :
    queries.foldl after e = e ∧ e.answers queries = queries.map e.answer := by
  induction queries with
  | nil => exact ⟨rfl, rfl⟩
  | cons q rest ih =>
    obtain ⟨hafter, hanswers⟩ := ih fun r hr => hq r (List.mem_cons_of_mem q hr)
    have hfirst : e.after q = e := after_of_bindsNothing he (hq q List.mem_cons_self)
    rw [List.foldl_cons, answers, hfirst]
    exact ⟨hafter, congrArg (e.answer q :: ·) hanswers⟩

/-- **Documents that bind nothing leave a session as it is.**  Let no element that binds anything
    stand in some blocks, in the templates that are bound and in the deferred blocks that are
    bound, also in lists.  Then the session is the same behind every one of the blocks, whether it
    is evaluated or its text, and to a value or a failure.  So each gets the same answer every time
    it is asked for, and the same answer in any order. -/
theorem answers_of_bindsNothing (he : e.environment.BindsNothing) {queries : List Query}
    (hq : ∀ q ∈ queries, q.block.BindsNothing) :
    (∀ q ∈ queries, e.after q = e ∧ (e.after q).answer q = e.answer q) ∧
      (queries.foldl after e = e ∧ e.answers queries = queries.map e.answer) ∧
      ∀ reordered, queries.Perm reordered →
        (queries.zip (e.answers queries)).Perm (reordered.zip (e.answers reordered)) := by
  refine ⟨fun q hm => ?_, answers_eq_map he hq, fun reordered hperm => ?_⟩
  · have hafter : e.after q = e := after_of_bindsNothing he (hq q hm)
    exact ⟨hafter, congrArg (·.answer q) hafter⟩
  · have hq' : ∀ q ∈ reordered, q.block.BindsNothing := fun q hm => hq q (hperm.mem_iff.2 hm)
    rw [(answers_eq_map he hq).2, (answers_eq_map he hq').2, ← List.map_prod_left_eq_zip,
      ← List.map_prod_left_eq_zip]
    exact hperm.map _

/-- A template that refers to a deferred block, extended with overrides that fail, and a list with a
    deferred block in it, printed before and behind that. -/
theorem answers_of_bindsNothing_failed :
    let e : Engine := ⟨.default, ⟨[("x", .deferred [.element "char" [[.text "tab"]]]),
      ("xs", .list [.deferred [.text "a"]])], [("t", [.element "" [[.text "x"]]])]⟩⟩
    let printed : Block := [.text "v: ", .element "" [[.text "xs"]]]
    let failed : Block := [.element "extends" [[.text "t"], [.element "" [[.text "y"]]]]]
    let queries : List Query := [.text printed, .value failed, .text printed]
    (e.environment.BindsNothing ∧ ∀ q ∈ queries, q.block.BindsNothing) ∧
      queries.foldl after e = e ∧
      e.answers queries = [.text (.ok "v: [a]"), .value (.error (.error (.unbound "y"))),
        .text (.ok "v: [a]")] := by
  intro e printed failed queries
  have he : e.environment.BindsNothing := by
    constructor
    · intro name v hv b hb
      simp only [e, Bindings.get?] at hv
      split at hv
      · cases hv
        obtain rfl := List.mem_singleton.1 hb
        decide
      · split at hv <;> cases hv
        obtain rfl := List.mem_singleton.1 hb
        decide
    · intro name b hb
      simp only [e, Bindings.get?] at hb
      split at hb <;> cases hb
      decide
  have hq : ∀ q ∈ queries, q.block.BindsNothing := by
    intro q hm
    simp only [queries, List.mem_cons, List.not_mem_nil, or_false] at hm
    rcases hm with rfl | rfl | rfl <;> decide
  obtain ⟨-, ⟨hafter, hanswers⟩, -⟩ := answers_of_bindsNothing he hq
  exact ⟨⟨he, hq⟩, hafter, hanswers.trans rfl⟩

end Engine

end BraceMarkup
