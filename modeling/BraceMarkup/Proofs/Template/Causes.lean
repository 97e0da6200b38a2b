/-
  What a failed import tells.

  The fault of an import that fails holds what made it fail: a reason why the
  module could not be had, or the fault in the module, where another import
  may have failed.  So a fault is a chain, of imports but for its last link.

  * `EvalError.imports`, `EvalError.root`: the modules of the imports, outermost
    first, and what is behind them;
  * `Cause`, `EvalError.chain`: the fault with all that is behind it, link by
    link;
  * `EvalError.chain_modules`: imports, and then one link that is none;
  * `EvalError.message_eq`, `EvalError.causes_eq`: what a reader is told, from
    the links.
-/
import BraceMarkup.Template.Error

namespace BraceMarkup

/-! ## The two kinds of failed imports -/

namespace EvalError

/-- A fault is that of a failed import, whose module failed in turn or was not there, or has no
    module behind it. -/
theorem rec_imported {motive : EvalError → Prop}
    (imported : ∀ module cause, motive cause → motive (.imported module cause))
    (unloadable : ∀ module reason, motive (.unloadable module reason))
    (own : ∀ e, (∀ module cause, e ≠ .importFailed module cause) → motive e) : ∀ e, motive e
  | .imported module cause =>
    imported module cause (rec_imported imported unloadable own cause)
  | .importFailed module (.document (.malformed cause)) => unloadable module (.malformed cause)
  | .importFailed module (.unreadable path cause) => unloadable module (.unreadable path cause)
  | .importFailed module (.notFound name) => unloadable module (.notFound name)
  | .unknownDirective _ | .wrongArity _ _ _ | .unbound _ | .unboundTemplate _ | .typeMismatch _ _
  | .unknownChar _ | .noLoader | .recursionLimit _ => own _ fun _ _ => EvalError.noConfusion

end EvalError

/-! ## Links -/

/-- A link in the chain of what made an evaluation fail. -/
inductive Cause where
  | fault (e : EvalError)
  /-- The module could not be had. -/
  | load (e : LoadError)

namespace Cause

/-- A link in words. -/
def message : Cause → String
  | fault e => e.message
  | load e => e.message

/-- The module, if the link is a failed import. -/
def module? : Cause → Option String
  | fault (.importFailed module _) => some module
  | _ => none

/-- The messages that tell of a link behind another one.  A fault in a module is told by its
    document, and then by itself; a reason why there is no module tells its own causes. -/
def reported : Cause → List String
  | fault e => [e.message, e.message]
  | load e => e.message :: e.causes

end Cause

namespace EvalError

/-- The modules whose imports failed, outermost first. -/
def imports : EvalError → List String
  | .imported module cause => module :: cause.imports
  | .importFailed module _ => [module]
  | _ => []

/-- What is behind all failed imports. -/
def root : EvalError → Cause
  | .imported _ cause => cause.root
  | .importFailed _ cause => .load cause
  | e => .fault e

/-- The fault and all that is behind it. -/
def chain : EvalError → List Cause
  | .imported module cause => .fault (.imported module cause) :: cause.chain
  | .importFailed module cause => [.fault (.importFailed module cause), .load cause]
  | e => [.fault e]

/-- The fault is that of a failed import. -/
def IsImport (e : EvalError) : Prop := e.imports ≠ []

theorem not_isImport {e : EvalError} (h : e.imports = []) : ¬ e.IsImport := not_not_intro h

/-- Behind an import for which there is no module is the reason, and nothing else. -/
theorem unloadable_eq (module : String) (reason : Unavailable) :
    (unloadable module reason).imports = [module] ∧
      (unloadable module reason).root = .load reason.toLoadError ∧
      (unloadable module reason).chain =
        [.fault (unloadable module reason), .load reason.toLoadError] := by
  cases reason <;> exact ⟨rfl, rfl, rfl⟩

/-- A fault that is not of an import stands alone. -/
theorem own_eq {e : EvalError} (h : ∀ module cause, e ≠ .importFailed module cause) :
    e.imports = [] ∧ e.root = .fault e ∧ e.chain = [.fault e] ∧ e.causes = [] ∧
      Cause.module? (.fault e) = none := by
  cases e with
  | importFailed module cause => exact absurd rfl (h module cause)
  | _ => exact ⟨rfl, rfl, rfl, rfl, rfl⟩

/-- A failed import in words, less what made it fail. -/
def importMessage (module : String) : String := "cannot import " ++ Text.quoted module

/-- The chain begins with the fault itself. -/
theorem chain_eq_cons (e : EvalError) : e.chain = .fault e :: e.chain.tail := by
  induction e using rec_imported with
  | imported module cause _ => rfl
  | unloadable module reason =>
    obtain ⟨-, -, hchain⟩ := unloadable_eq module reason
    rw [hchain, List.tail_cons]
  | own e he =>
    obtain ⟨-, -, hchain, -⟩ := own_eq he
    rw [hchain, List.tail_cons]

/-- The links are imports, but for the last one. -/
theorem chain_modules (e : EvalError) :
    e.chain.map Cause.module? = e.imports.map some ++ [none] := by
  induction e using rec_imported with
  | imported module cause ih => exact congrArg (some module :: ·) ih
  | unloadable module reason =>
    obtain ⟨himports, -, hchain⟩ := unloadable_eq module reason
    rw [himports, hchain]
    rfl
  | own e he =>
    obtain ⟨himports, -, hchain, -, hmodule⟩ := own_eq he
    rw [himports, hchain, List.map_singleton, hmodule]
    rfl

theorem getLast?_chain (e : EvalError) : e.chain.getLast? = some e.root := by
  induction e using rec_imported with
  | imported module cause ih =>
    rw [chain, root, ← ih, chain_eq_cons cause]
    rfl
  | unloadable module reason =>
    obtain ⟨-, hroot, hchain⟩ := unloadable_eq module reason
    rw [hchain, hroot]
    rfl
  | own e he =>
    obtain ⟨-, hroot, hchain, -⟩ := own_eq he
    rw [hchain, hroot]
    rfl

/-- The message names the module of every import, and ends with that of the root. -/
theorem message_eq (e : EvalError) :
    e.message = String.intercalate ": " (e.imports.map importMessage ++ [e.root.message]) := by
  induction e using rec_imported with
  | imported module cause ih =>
    calc (imported module cause).message
        = importMessage module ++ ": " ++ cause.message := rfl
      _ = importMessage module ++ ": " ++
            String.intercalate ": " (cause.imports.map importMessage ++ [cause.root.message]) := by
          rw [← ih]
      _ = _ := (String.intercalate_cons_of_ne_nil (by simp)).symm
  | unloadable module reason =>
    obtain ⟨himports, hroot, -⟩ := unloadable_eq module reason
    calc (unloadable module reason).message
        = importMessage module ++ ": " ++ reason.toLoadError.message := rfl
      _ = _ := by
          rw [himports, hroot, List.map_singleton, List.singleton_append,
            String.intercalate_cons_cons, String.intercalate_singleton, Cause.message]
  | own e he =>
    obtain ⟨himports, hroot, -⟩ := own_eq he
    rw [himports, hroot]
    exact String.intercalate_singleton.symm

/-- The fault of modules of which each one imports the next. -/
theorem imports_foldr_imported (modules : List String) (e : EvalError) :
    (modules.foldr imported e).imports = modules ++ e.imports ∧
      (modules.foldr imported e).root = e.root := by
  induction modules with
  | nil => exact ⟨rfl, rfl⟩
  | cons module rest ih => exact ⟨congrArg (module :: ·) ih.1, ih.2⟩

/-- The causes that are reported are the links behind the first one, in their order. -/
theorem causes_eq (e : EvalError) : e.causes = e.chain.tail.flatMap Cause.reported := by
  induction e using rec_imported with
  | imported module cause ih =>
    -- the document of the module speaks first, and then the fault in it
    have hcauses : (imported module cause).causes =
        cause.message :: cause.message :: cause.causes := rfl
    rw [hcauses, ih, chain, List.tail_cons, chain_eq_cons cause]
    rfl
  | unloadable module reason =>
    obtain ⟨-, -, hchain⟩ := unloadable_eq module reason
    rw [hchain]
    exact (List.append_nil _).symm
  | own e he =>
    obtain ⟨-, -, hchain, hcauses, -⟩ := own_eq he
    rw [hcauses, hchain]
    rfl

end EvalError

end BraceMarkup
