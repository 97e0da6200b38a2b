/-
  Two evaluations in one environment, up to failures that are excused.

  The plainest comparison of two evaluations: their environments are the same
  all along, and so is what they yield, unless the first one ends in a failure
  that is excused.  Nothing is asked of what they evaluate.

  * `Lockstep.upTo`: the comparison;
  * `Lockstep.upTo_laws`: what is left to show of it;
  * `Lockstep.Alike.upTo_cases`: the outcomes of two computations that compare.
-/
import BraceMarkup.Proofs.Template.Lockstep

namespace BraceMarkup

namespace Lockstep

/-- Two evaluations in the same environment.  Nothing is said of the second one if the first ends in
    a failure that is excused. -/
def upTo (excused : Failure → Prop) : Lockstep where
  environments E F := E = F
  name _ := True
  element _ _ _ := True
  value _ := True
  item _ := True
  failure _ := True
  excused := excused

section
variable {excused : Failure → Prop}

theorem upTo_block (a : Nat) (b : Block) : (upTo excused).block a b := fun _ _ _ => trivial

/-- Both environments are changed alike. -/
theorem upTo_change {E F : Environment} (h : (upTo excused).environments E F)
    (f : Environment → Environment) : (upTo excused).environments (f E) (f F) := congrArg f h

/-- Whatever a loader gives, both evaluations get it. -/
theorem upTo_loaded (r : Except Unavailable Module) (a : Nat) (name : String) :
    (upTo excused).Loaded a name r r := by
  cases r with
  | error e => exact .error trivial
  | ok module =>
    cases module with
    | document source => exact .document (fun b _ => upTo_block a b) fun _ _ => trivial
    | bindings values => exact .bindings fun E F hE => upTo_change hE (·.setVariables values)

theorem upTo_loaders (loader : Option Loader) (a : Nat) (name : String) :
    (upTo excused).Loaders a name loader loader := by
  cases loader with
  | none => exact .none
  | some loader => exact .some (upTo_loaded _ a name)

/-- What is to be shown: the loaders compare, what is excused in a module is excused of the import,
    and the limit of active elements either is reached by both or excused. -/
theorem upTo_laws {gap : Nat} {c d : Config} (htrim : c.trimSpaces = d.trimSpaces)
    (hload : ∀ a name, (upTo excused).Loaders a name c.loader d.loader)
    (himported : ∀ name e, excused (.error e) → excused (.error (.imported name e)))
    (hlimit : gap = 0 ∨ ∀ name, excused (.error (.recursionLimit name))) :
    (upTo excused).Laws gap c d where
  trimSpaces := htrim
  lookupVariable {E F name} hE _ := by
    obtain rfl : E = F := hE
    refine ⟨rfl, ?_⟩
    cases E.values.get? name with
    | none => trivial
    | some v => trivial
  lookupTemplate {E F name} hE _ := by
    obtain rfl : E = F := hE
    refine ⟨rfl, ?_⟩
    cases E.templates.get? name with
    | none => trivial
    | some b => exact fun a => upTo_block a b
  arguments _ _ := ⟨trivial, upTo_block _ _⟩
  inlined _ _ := upTo_block _ _
  define _ _ _ _ hE := upTo_change hE (·.setVariable _ _)
  foreach _ _ _ hE := upTo_change hE (·.setVariable _ _)
  template _ _ hE := upTo_change hE (·.setTemplate _ _)
  importModule _ _ := hload _ _
  text _ := trivial
  number _ := trivial
  boolean _ := trivial
  items _ _ := trivial
  value_of_item _ := trivial
  deferred _ := upTo_block _ _
  endless _ := .inr trivial
  plain _ := trivial
  imported _ := trivial
  excused_imported h := himported _ _ h
  limit _ _ := hlimit.symm.imp (fun h => h _) fun h => ⟨h, trivial⟩

/-- The outcomes of two computations that compare: an excused failure of the first, or the same
    result and the same environment.  Behind each as many elements are active as before. -/
theorem Alike.upTo_cases {α : Type} {P : α → Prop} {x y : Evaluation α} {a b : Nat}
    (h : (upTo excused).Alike a b P x y) (E : Environment) :
    (∃ f s, x.outcome ⟨E, a⟩ = (.error f, s) ∧ excused f) ∨
      ∃ r F, x.outcome ⟨E, a⟩ = (r, ⟨F, a⟩) ∧ y.outcome ⟨E, b⟩ = (r, ⟨F, b⟩) := by
  have hx := h E E rfl
  generalize x.outcome ⟨E, a⟩ = o, y.outcome ⟨E, b⟩ = o' at hx ⊢
  cases hx with
  | @ok v F _ _ hF =>
    obtain rfl : F = _ := hF
    exact .inr ⟨.ok v, F, rfl, rfl⟩
  | @error f F _ _ hF =>
    obtain rfl : F = _ := hF
    exact .inr ⟨.error f, F, rfl, rfl⟩
  | @excused f s _ hf => exact .inl ⟨f, s, rfl, hf⟩

end

end Lockstep

end BraceMarkup
