/-
  What the parts of an evaluation yield, and what they leave behind.

  * `outcome_bind`, `outcome_tryCatch`: computations one after the other;
  * `outcome_whileActive`: a computation during which one more element is
    active;
  * `whileActive_congr`: such a computation never runs while more than
    `maxActive` elements are active;
  * `directive_define` and others: what some directives do;
  * `outcome_document`: what the document of a module yields.
-/
import BraceMarkup.Template.Evaluation

namespace BraceMarkup

namespace Evaluation

variable {α β : Type}

@[simp] theorem outcome_pure (a : α) (s : EvaluationState) :
    (pure a : Evaluation α).outcome s = (.ok a, s) := rfl

@[simp] theorem outcome_throw (f : Failure) (s : EvaluationState) :
    (throw f : Evaluation α).outcome s = (.error f, s) := rfl

@[simp] theorem outcome_fail (e : EvalError) (s : EvaluationState) :
    (fail e : Evaluation α).outcome s = (.error (.error e), s) := rfl

@[simp] theorem outcome_boundVariable (name : String) (s : EvaluationState) :
    (boundVariable name).outcome s = (.ok (s.environment.values.get? name), s) := rfl

@[simp] theorem outcome_boundTemplate (name : String) (s : EvaluationState) :
    (boundTemplate name).outcome s = (.ok (s.environment.templates.get? name), s) := rfl

@[simp] theorem outcome_change (f : Environment → Environment) (s : EvaluationState) :
    (change f).outcome s = (.ok (), { s with environment := f s.environment }) := rfl

/-- A computation goes on where the one before it ends, unless that fails. -/
theorem outcome_bind (x : Evaluation α) (f : α → Evaluation β) (s : EvaluationState) :
    (x >>= f).outcome s =
      match x.outcome s with
      | (.ok a, s') => (f a).outcome s'
      | (.error e, s') => (.error e, s') := by
  show (ExceptT.bindCont f (x.outcome s).1).run (x.outcome s).2 = _
  rcases x.outcome s with ⟨_ | _, _⟩ <;> rfl

/-- A computation that ends with a value passes through the value of its first part. -/
theorem exists_of_outcome_bind {x : Evaluation α} {f : α → Evaluation β} {s : EvaluationState}
    {v : β} (h : ((x >>= f).outcome s).1 = .ok v) :
    ∃ w s', x.outcome s = (.ok w, s') ∧ ((f w).outcome s').1 = .ok v := by
  rw [outcome_bind] at h
  generalize x.outcome s = o at h ⊢
  obtain ⟨r, s'⟩ := o
  cases r with
  | error f => cases h
  | ok w => exact ⟨w, s', rfl, h⟩

/-- A failure is handled where it happens, with all that was bound before it. -/
theorem outcome_tryCatch (x : Evaluation α) (handle : Failure → Evaluation α)
    (s : EvaluationState) :
    (tryCatch x handle).outcome s =
      match x.outcome s with
      | (.ok a, s') => (.ok a, s')
      | (.error e, s') => (handle e).outcome s' := by
  rw [outcome, ExceptT.run_tryCatch, StateT.run_bind]
  rcases hx : x.outcome s with ⟨_ | _, s'⟩ <;>
    rw [show StateT.run (ExceptT.run x) s = _ from hx] <;> rfl

/-- While `x` runs, one more element is active, and afterwards one less, whether `x` fails or
    not. -/
theorem outcome_whileActive (label : String) (x : Evaluation α) (s : EvaluationState) :
    (whileActive label x).outcome s =
      if maxActive ≤ s.active then (.error (.error (.recursionLimit label)), s)
      else
        let (result, s') := x.outcome { s with active := s.active + 1 }
        (result, { s' with active := s'.active - 1 }) := by
  by_cases h : maxActive ≤ s.active
  · rw [if_pos h]
    simp only [whileActive, outcome, ExceptT.run_mk, StateT.run_bind, StateT.run_get, pure_bind, h]
    rfl
  · rw [if_neg h]
    simp only [whileActive, outcome, ExceptT.run_mk, StateT.run_bind, StateT.run_get, pure_bind, h]
    rfl

theorem ext_outcome {x y : Evaluation α} (h : ∀ s, x.outcome s = y.outcome s) : x = y := funext h

/-- What a computation would do while more than `maxActive` elements are active plays no part. -/
theorem whileActive_congr {label : String} {x y : Evaluation α}
    (h : ∀ s, s.active ≤ maxActive → x.outcome s = y.outcome s) :
    whileActive label x = whileActive label y := by
  refine ext_outcome fun s => ?_
  rw [outcome_whileActive, outcome_whileActive]
  by_cases ha : maxActive ≤ s.active
  · rw [if_pos ha, if_pos ha]
  · have hs : s.active + 1 ≤ maxActive := Nat.lt_of_not_le ha
    rw [if_neg ha, if_neg ha, h { s with active := s.active + 1 } hs]

end Evaluation

/-! ## Directives -/

section
open Evaluation
variable (config : Config) (l : Level) (binder body : Block)

theorem directive_import : directive config l "import" [binder] = (do
    l.importModule config (bindingName binder)
    return none) := rfl

theorem directive_define : directive config l "define" [binder, body] = (do
    let value ← l.resolve false body
    change (·.setVariable (bindingName binder) (value.getD (.text "")))
    return none) := rfl

theorem directive_foreach (item items : Block) : directive config l "foreach" [item, items, body] =
    (do
      let values ← l.listItems "foreach" items
      return some (.text (← l.repeatFor (bindingName item) body values))) := rfl

theorem directive_intersperse (items separator : Block) :
    directive config l "intersperse" [items, separator] = (do
      let values ← l.listItems "intersperse" items
      let texts ← values.mapM l.print
      return some (.text (String.intercalate separator.textContent texts))) := rfl

theorem directive_inline : directive config l "inline" [body] =
    l.block (body.mapText Text.removeBreaks) := rfl

theorem directive_reference : directive config l "" [binder] =
    l.reference (bindingName binder) := rfl

/-- The document of a module yields nothing, and what fails in it fails the import. -/
theorem outcome_document (l : Level) (name : String) {source : String} {b : Block}
    (hb : Block.ofSource source = .ok b) (s : EvaluationState) :
    (l.document name source).outcome s =
      match (l.block b).outcome s with
      | (.ok _, s') => (.ok (), s')
      | (.error (.error e), s') => (.error (.error (.imported name e)), s')
      | (.error .endless, s') => (.error .endless, s') := by
  have hdiscard : (discard (l.block b)).outcome s =
      match (l.block b).outcome s with
      | (.ok _, s') => (.ok (), s')
      | (.error f, s') => (.error f, s') := by
    show (l.block b >>= fun _ => pure ()).outcome s = _
    rw [outcome_bind]
    rcases (l.block b).outcome s with ⟨_ | _, _⟩ <;> rfl
  rw [Level.document, hb]
  simp only [outcome_tryCatch, hdiscard]
  rcases (l.block b).outcome s with ⟨(_ | _) | _, s'⟩ <;> rfl

end

/-- An element never runs while more than `maxActive` elements are active: at no level does it
    matter what it would do then. -/
theorem level_congr {config : Config} {run other : Level → ElementEvaluator}
    (h : ∀ l name arguments s, s.active ≤ maxActive →
      (run l name arguments).outcome s = (other l name arguments).outcome s) (n depth : Nat) :
    level config run n depth = level config other n depth := by
  induction n generalizing depth with
  | zero => rfl
  | succ n ih =>
    simp only [level]
    refine congrFun (congrArg (Level.ofElement config) ?_) depth
    funext d name arguments
    rw [ih]
    exact Evaluation.whileActive_congr fun s hs => h _ _ _ s hs

end BraceMarkup
