/-
  Bindings are never lost.

  A directive can bind a name, and bind it again, but nothing takes a binding
  away: neither a loop, whose variable stays bound behind it, nor a module, nor
  a failure.  So a name that is bound once is found wherever it is looked up
  later on.

  * `Bindings.Binds`, `Environment.BoundIn`: a name is bound, and every name
    that is bound in one environment is bound in another;
  * `EvalError.Denies`: a fault says of a bound name that it is not bound;
  * `Lockstep.keeps_boundIn`: what was bound at some time is bound in all
    environments that an evaluation comes to, and nobody denies it;
  * `Engine.after_keeps`: one query;
  * `Engine.bindings_kept`: **a name that is bound stays bound**, whatever a
    session is asked for, and no query fails for want of it.
-/
import BraceMarkup.Proofs.Template.Invariant
import BraceMarkup.Proofs.Template.Limit

namespace BraceMarkup

/-! ## Names that are bound -/

/-- The name stands for something. -/
def Bindings.Binds {α : Type} (bindings : Bindings α) (name : String) : Prop :=
  bindings.get? name ≠ none

theorem Bindings.Binds.set {α : Type} {bindings : Bindings α} {name : String}
    (h : bindings.Binds name) (other : String) (value : α) :
    (bindings.set other value).Binds name := by
  rw [Binds, get?_set]
  split
  · exact Option.some_ne_none value
  · exact h

/-- Every name that is bound in the first environment is bound in the second one. -/
structure Environment.BoundIn (E F : Environment) : Prop where
  values : ∀ name, E.values.Binds name → F.values.Binds name
  templates : ∀ name, E.templates.Binds name → F.templates.Binds name

namespace Environment.BoundIn

variable {E F : Environment}

theorem refl (E : Environment) : E.BoundIn E := ⟨fun _ h => h, fun _ h => h⟩

theorem setVariable (h : E.BoundIn F) (name : String) (value : Value) :
    E.BoundIn (F.setVariable name value) :=
  ⟨fun other ho => (h.values other ho).set name value, h.templates⟩

theorem setTemplate (h : E.BoundIn F) (name : String) (block : Block) :
    E.BoundIn (F.setTemplate name block) :=
  ⟨h.values, fun other ho => (h.templates other ho).set name block⟩

end Environment.BoundIn

/-! ## Faults of names that are not bound -/

/-- The fault, behind all failed imports, is that a name is not bound, though it is bound in the
    environment. -/
def EvalError.Denies (e : EvalError) (E : Environment) : Prop :=
  (∃ name, e.innermost = .unbound name ∧ E.values.Binds name) ∨
    ∃ name, e.innermost = .unboundTemplate name ∧ E.templates.Binds name

/-- The evaluation failed with a fault that denies no binding of the environment. -/
def Failure.Grants (E : Environment) : Failure → Prop
  | .error e => ¬ e.Denies E
  | .endless => True

/-- Only the two faults of unbound names can deny a binding. -/
theorem EvalError.not_denies {e : EvalError} {E : Environment}
    (hv : ∀ name, e.innermost ≠ .unbound name) (ht : ∀ name, e.innermost ≠ .unboundTemplate name) :
    ¬ e.Denies E := by
  rintro (⟨name, h, -⟩ | ⟨name, h, -⟩)
  · exact hv name h
  · exact ht name h

/-- A name is only called unbound where it is, and no directive takes a binding away. -/
theorem Lockstep.keeps_boundIn (E₀ : Environment) :
    Keeps (E₀.BoundIn ·) (Failure.Grants E₀) where
  setVariable name value hE := hE.setVariable name value
  setTemplate name b hE := hE.setTemplate name b
  unbound {E name} hE hv := by
    rintro (⟨_, ⟨⟩, hbound⟩ | ⟨_, ⟨⟩, -⟩)
    exact hE.values name hbound hv
  unboundTemplate {E name} hE hb := by
    rintro (⟨_, ⟨⟩, -⟩ | ⟨_, ⟨⟩, hbound⟩)
    exact hE.templates name hbound hb
  plain h := by
    refine EvalError.not_denies ?_ ?_ <;>
    · cases h <;> exact fun _ => EvalError.noConfusion
  unloadable name reason := by
    refine EvalError.not_denies ?_ ?_ <;>
    · rw [EvalError.innermost_unloadable]
      exact fun _ => EvalError.noConfusion
  imported _ h := h
  recursionLimit _ :=
    EvalError.not_denies (fun _ => EvalError.noConfusion) fun _ => EvalError.noConfusion
  endless := trivial

/-! ## Sessions -/

namespace Engine

variable {e : Engine} {E₀ : Environment}

/-- A query to a session where all is bound that is bound in `E₀`. -/
theorem after_keeps (he : E₀.BoundIn e.environment) (q : Query) :
    E₀.BoundIn (e.after q).environment ∧ ∀ fault, e.FailsWith q fault → ¬ fault.Denies E₀ :=
  (Lockstep.keeps_boundIn E₀).after he q

/-- Queries one after the other. -/
theorem foldl_after_keeps (he : E₀.BoundIn e.environment) (queries : List Query) :
    E₀.BoundIn (queries.foldl after e).environment := by
  induction queries generalizing e with
  | nil => exact he
  | cons q rest ih => exact ih (after_keeps he q).1

/-- **A name that is bound stays bound.**  Let a session be asked for anything, one query after the
    other and answered or not.  Then every variable and every template that is bound at some time
    is bound ever after, and no later query fails because such a variable or template is not bound,
    neither in its document nor in a module, however deep the imports. -/
theorem bindings_kept (e : Engine) (earlier later : List Query) :
    let before := earlier.foldl after e
    let now := later.foldl after before
    before.environment.BoundIn now.environment ∧
      ∀ q fault, now.FailsWith q fault →
        (∀ name, before.environment.values.Binds name → fault.innermost ≠ .unbound name) ∧
        ∀ name, before.environment.templates.Binds name →
          fault.innermost ≠ .unboundTemplate name := by
  intro before now
  have hnow : before.environment.BoundIn now.environment :=
    foldl_after_keeps (.refl before.environment) later
  refine ⟨hnow, fun q fault hfault => ?_⟩
  have hgrants := (after_keeps hnow q).2 fault hfault
  exact ⟨fun name hname heq => hgrants (.inl ⟨name, heq, hname⟩),
    fun name hname heq => hgrants (.inr ⟨name, heq, hname⟩)⟩

/-- A module that fails twice: for want of a name that is bound behind the first failure, and then
    of another one.  What the module binds in between stays bound. -/
theorem bindings_kept_failed_import :
    let e : Engine := ⟨⟨false, some (.memory
      [("m", "#\x7bx\x7d#define\x7by\x7d\x7b1\x7d#\x7bz\x7d")])⟩, .empty⟩
    let module : Block := [.element "import" [[.text "m"]]]
    let define : Block := [.element "define" [[.text " x "], [.text "v"]]]
    let before := [Query.text module, .text define].foldl after e
    let now := [Query.text module].foldl after before
    e.FailsWith (.text module) (.imported "m" (.unbound "x")) ∧
      before.environment.values.Binds "x" ∧ now.environment.values.Binds "x" ∧
      now.FailsWith (.text module) (.imported "m" (.unbound "z")) ∧
      (EvalError.imported "m" (.unbound "z")).innermost ≠ .unbound "x" := by
  intro e module define before now
  have hfirst : e.FailsWith (.text module) (.imported "m" (.unbound "x")) := by
    show (e.evaluate module).1 = _
    decide +kernel
  have hbound : before.environment.values.Binds "x" := by
    unfold Bindings.Binds
    decide +kernel
  have hthen : now.FailsWith (.text module) (.imported "m" (.unbound "z")) := by
    show (now.evaluate module).1 = _
    decide +kernel
  obtain ⟨hkept, hfaults⟩ := bindings_kept e [.text module, .text define] [.text module]
  exact ⟨hfirst, hbound, hkept.values "x" hbound, hthen, (hfaults _ _ hthen).1 "x" hbound⟩

end Engine

end BraceMarkup
