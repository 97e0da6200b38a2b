/-
  The limit of active elements decides whether there is an answer, not which.

  An evaluation and the same evaluation with fewer elements active go on in
  lockstep until the first one comes to the limit.  The failure with which it
  then ends is not handled by any directive, and an import puts no more around
  it than the name of the module.

  * `EvalError.innermost`: the fault behind all failed imports;
  * `Settled`: a value, or a fault that is not due to the limit;
  * `Lockstep.fewerActive`: two evaluations of which the second has fewer
    elements active, up to the limit of the first;
  * `Engine.outcome_fewer_active`: **what is settled with some elements active
    is the same with fewer**.
-/
import BraceMarkup.Proofs.Template.Excused

namespace BraceMarkup

open Evaluation

/-! ## Settled results -/

/-- The fault behind all failed imports. -/
def EvalError.innermost : EvalError → EvalError
  | .imported _ cause => cause.innermost
  | e => e

/-- The evaluation came to the limit of active elements, in the document or in a module. -/
def EvalError.IsLimit (e : EvalError) : Prop := ∃ name, e.innermost = .recursionLimit name

/-- The evaluation was given up: too many elements were active, or it goes on without end. -/
def Failure.GivenUp : Failure → Prop
  | .error e => e.IsLimit
  | .endless => True

/-- A value, or a fault that is not due to the limit of active elements. -/
def Settled {α : Type} (r : Except Failure α) : Prop := ∀ f, r = .error f → ¬ f.GivenUp

/-- An import for which there is no module fails of itself. -/
theorem EvalError.innermost_unloadable (module : String) (reason : Unavailable) :
    (EvalError.unloadable module reason).innermost = .unloadable module reason := by
  cases reason <;> rfl

theorem EvalError.IsLimit.imported {e : EvalError} (h : e.IsLimit) (name : String) :
    (EvalError.imported name e).IsLimit := h

theorem EvalError.isLimit_recursionLimit (name : String) :
    (EvalError.recursionLimit name).IsLimit := ⟨name, rfl⟩

/-! ## The comparison -/

/-- Two evaluations in one environment.  Nothing is said of the second one if the first is given
    up. -/
def Lockstep.fewerActive : Lockstep := .upTo Failure.GivenUp

theorem Lockstep.fewerActive_block (a : Nat) (b : Block) : Lockstep.fewerActive.block a b :=
  upTo_block a b

/-- The first evaluation may have any number of elements more active than the second. -/
theorem Lockstep.fewerActive_laws (c : Config) (gap : Nat) :
    Lockstep.fewerActive.Laws gap c c :=
  upTo_laws rfl (upTo_loaders c.loader) (fun name _ h => EvalError.IsLimit.imported h name)
    (.inr EvalError.isLimit_recursionLimit)

/-! ## Two runs -/

/-- A computation that is settled with `a` elements active yields the same with `b` elements, and
    leaves the same environment.  Behind it as many elements are active as before. -/
def Evaluation.SettledAlike {α : Type} (x : Evaluation α) (E : Environment) (a b : Nat) : Prop :=
  Settled (x.outcome ⟨E, a⟩).1 →
    ∃ r F, x.outcome ⟨E, a⟩ = (r, ⟨F, a⟩) ∧ x.outcome ⟨E, b⟩ = (r, ⟨F, b⟩)

theorem Lockstep.Alike.settledAlike {α : Type} {P : α → Prop} {x : Evaluation α} {a b : Nat}
    (h : Lockstep.fewerActive.Alike a b P x x) (E : Environment) : x.SettledAlike E a b := by
  intro hs
  rcases h.upTo_cases E with ⟨f, s, hx, hf⟩ | heq
  · rw [hx] at hs
    exact absurd hf (hs f rfl)
  · exact heq

namespace Engine

/-- **The limit of active elements turns answers into errors and changes none.**  If a block, or
    its text, is evaluated to a value with `d₂` elements active, or to a fault that is not due to
    the limit, then with fewer elements active it is evaluated to the same, and leaves the same
    environment.  How deeply deferred blocks may be printed inside each other plays no part. -/
theorem outcome_fewer_active (c : Config) (depth : Nat) (E : Environment) (b : Block)
    {d₁ d₂ : Nat} (h : d₁ ≤ d₂) :
    let l := level c (directive c) maxActive depth
    (l.block b).SettledAlike E d₂ d₁ ∧ (l.blockText b).SettledAlike E d₂ d₁ := by
  intro l
  have hgap : d₂ = d₁ + (d₂ - d₁) := (Nat.add_sub_cancel' h).symm
  have hlevels : Lockstep.fewerActive.Levels d₂ d₁ l l :=
    (Lockstep.fewerActive_laws c (d₂ - d₁)).level hgap (Nat.le_add_left _ _) (Nat.le_add_left _ _)
      (.inl rfl)
  have hb := Lockstep.fewerActive_block d₂ b
  exact ⟨(hlevels.block hb).settledAlike E, (hlevels.blockText hb).settledAlike E⟩

/-- An element for which there is just room, with a fault behind it. -/
theorem outcome_fewer_active_last :
    let l := topLevel .default
    let b : Block := [.text "a", .element "char" [[.text "tab"]], .element "" [[.text "x"]]]
    0 ≤ 127 ∧ Settled ((l.blockText b).outcome ⟨.empty, 127⟩).1 ∧
      ((l.blockText b).outcome ⟨.empty, 0⟩).1 = .error (.error (.unbound "x")) := by
  intro l b
  have h127 : ((l.blockText b).outcome ⟨.empty, 127⟩).1 = .error (.error (.unbound "x")) := rfl
  have hs : Settled ((l.blockText b).outcome ⟨.empty, 127⟩).1 := by
    rw [h127]
    rintro f ⟨⟩ ⟨name, hname⟩
    cases hname
  refine ⟨by decide, hs, ?_⟩
  obtain ⟨r, F, hr, hr'⟩ :=
    (outcome_fewer_active .default maxPrintDepth .empty b (show 0 ≤ 127 by decide)).2 hs
  calc ((l.blockText b).outcome ⟨.empty, 0⟩).1
      = r := congrArg Prod.fst hr'
    _ = ((l.blockText b).outcome ⟨.empty, 127⟩).1 := (congrArg Prod.fst hr).symm
    _ = .error (.error (.unbound "x")) := h127

end Engine

end BraceMarkup
