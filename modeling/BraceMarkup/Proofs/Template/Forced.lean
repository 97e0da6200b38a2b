/-
  Deferred blocks are evaluated where they are used.

  A variable can stand for a deferred block, and so can an item of a list.
  Whatever refers to such a variable evaluates the block and goes on with its
  value, and if that comes from a variable again, so does the evaluation that
  it comes from.  So no evaluation yields a deferred block, no definition binds
  one, and no directive finds one where it needs another value.

  * `EvalError.FindsDeferred`: a directive needed a value of some kind and found
    a deferred block;
  * `Lockstep.keeps_all`: no evaluation fails so, whatever is bound;
  * `Level.outcome_define`: what a definition binds;
  * `Engine.never_deferred`: **deferred blocks do not escape**.
-/
import BraceMarkup.Proofs.Template.Composition
import BraceMarkup.Proofs.Template.Invariant
import BraceMarkup.Proofs.Template.Limit

namespace BraceMarkup

open Evaluation

/-! ## Faults -/

/-- The fault, behind all failed imports, is that a directive found a deferred block where it needs
    a value of some kind. -/
def EvalError.FindsDeferred (e : EvalError) : Prop :=
  ∃ directive expected, e.innermost = .typeMismatch directive ⟨expected, some .deferred⟩

/-- The evaluation did not fail because a directive found a deferred block. -/
def Failure.FindsNoDeferred : Failure → Prop
  | .error e => ¬ e.FindsDeferred
  | .endless => True

/-- What was found was called a deferred block only if it was one. -/
theorem KindError.found_of_foundText {cause : KindError}
    (h : cause.foundText = "deferred block") : cause.found = some .deferred := by
  obtain ⟨expected, found⟩ := cause
  have hdescribe : ∀ kind : Value.Kind, kind.describe = "deferred block" → kind = .deferred := by
    rintro (_ | _ | _ | _ | _) <;> decide
  cases found with
  | none => exact absurd h (by show "nothing" ≠ "deferred block"; decide)
  | some kind => exact congrArg some (hdescribe kind h)

/-! ## Evaluations -/

namespace Lockstep

/-- No evaluation fails because a deferred block was found, whatever is bound. -/
theorem keeps_all : Keeps (fun _ => True) Failure.FindsNoDeferred where
  setVariable _ _ h := h
  setTemplate _ _ h := h
  unbound _ _ := by rintro ⟨_, _, ⟨⟩⟩
  unboundTemplate _ _ := by rintro ⟨_, _, ⟨⟩⟩
  plain {e} h := by
    rintro ⟨directive, expected, he⟩
    cases h with
    | typeMismatch hfound =>
      cases he
      exact hfound rfl
    | unknownDirective | wrongArity | unknownChar | noLoader => cases he
  unloadable name reason := by
    rintro ⟨_, _, h⟩
    rw [EvalError.innermost_unloadable] at h
    cases h
  imported _ h := h
  recursionLimit _ := by rintro ⟨_, _, ⟨⟩⟩
  endless := trivial

end Lockstep

section
variable {c : Config} {n depth : Nat} {s s' : EvaluationState}

/-- At any level and whatever is bound, a block does not yield a deferred block. -/
theorem Level.kind_of_outcome (hn : maxActive ≤ s.active + n) {b : Block} {v : Value}
    (h : ((level c (directive c) n depth).block b).outcome s = (.ok (some v), s')) :
    v.kind ≠ .deferred := by
  have hlevels := Lockstep.keeps_all.levels c hn depth
  obtain ⟨r, _, hr, -, hv, -⟩ :=
    (hlevels.block (Lockstep.invariant_block _ b)).invariant_cases trivial
  obtain ⟨rfl, -⟩ := Prod.mk.inj (h.symm.trans hr)
  exact (hv _ rfl v rfl).2

/-- **A definition never binds a deferred block**, whatever its body stands for. -/
theorem Level.outcome_define (hn : maxActive ≤ s.active + n) {binder body : Block}
    {r : Option Value}
    (h : ((level c (directive c) n depth).block [.element "define" [binder, body]]).outcome s =
      (.ok r, s')) :
    ∃ v, s'.environment.values.get? (bindingName binder) = some v ∧ v.kind ≠ .deferred := by
  obtain ⟨E, a⟩ := s
  by_cases ha : maxActive ≤ a
  · rw [outcome_element_limit ha] at h
    cases h
  obtain ⟨n, rfl⟩ : ∃ m, n = m + 1 := Nat.exists_eq_add_one.2 (by simp only at hn; omega)
  rw [outcome_element (Nat.lt_of_not_le ha), directive_define, outcome_bind] at h
  have hlaws := Lockstep.keeps_all.laws c
  have hn' : maxActive ≤ a + 1 + n := by
    simp only at hn
    omega
  have hlevels := Lockstep.keeps_all.levels c hn' depth
  have hresolve : (Lockstep.invariant (fun _ => True) Failure.FindsNoDeferred).Alike (a + 1) (a + 1)
      (Lockstep.invariant (fun _ => True) Failure.FindsNoDeferred).result
      ((level c (directive c) n depth).resolve false body)
      ((level c (directive c) n depth).resolve false body) :=
    hlevels.resolve hlaws trivial (Lockstep.invariant_block _ body)
  obtain ⟨result, t, ht, -, hresult, -⟩ :=
    Lockstep.Alike.invariant_cases (s := ⟨E, a + 1⟩) hresolve trivial
  rw [ht] at h
  cases result with
  | error f => cases h
  | ok value =>
    obtain ⟨-, hkind⟩ := hlaws.result_getD (hresult value rfl)
    simp only [outcome_bind, outcome_change, outcome_pure, Prod.mk.injEq] at h
    obtain ⟨-, rfl⟩ := h
    refine ⟨_, ?_, hkind⟩
    simp only [Environment.setVariable, Bindings.get?_set, if_pos]

end

/-! ## Sessions -/

namespace Engine

/-- **Deferred blocks do not escape an evaluation.**  Let variables, items of lists and templates be
    whatever they are.  The value that a block is evaluated to is no deferred block, neither in a
    session nor wherever an evaluation comes to a block, at any level.  A definition binds its name
    to a value that is none, wherever an evaluation comes to one.  No evaluation fails, in its
    document or in a module, because a directive found a deferred block in place of a value of some
    kind. -/
theorem never_deferred (e : Engine) :
    (∀ b v, (e.evaluateBlock b).1 = .ok (some v) → v.kind ≠ .deferred) ∧
    (∀ n depth s, maxActive ≤ s.active + n →
      let l := level e.config (directive e.config) n depth
      (∀ b v s', (l.block b).outcome s = (.ok (some v), s') → v.kind ≠ .deferred) ∧
      ∀ binder body r s',
        (l.block [.element "define" [binder, body]]).outcome s = (.ok r, s') →
          ∃ v, s'.environment.values.get? (bindingName binder) = some v ∧ v.kind ≠ .deferred) ∧
    ∀ q fault name cause, e.FailsWith q fault → fault.innermost = .typeMismatch name cause →
      cause.found ≠ some .deferred ∧ cause.foundText ≠ "deferred block" := by
  refine ⟨fun b v hv => ?_, fun n depth s hn => ?_, fun q fault name cause hq hfault => ?_⟩
  · obtain ⟨s, hs⟩ : ∃ s, ((topLevel e.config).block b).outcome ⟨e.environment, 0⟩ =
        (.ok (some v), s) := ⟨_, Prod.ext hv rfl⟩
    exact Level.kind_of_outcome (s := ⟨e.environment, 0⟩) (Nat.le_add_left _ _) hs
  · exact ⟨fun b v s' h => Level.kind_of_outcome hn h,
      fun binder body r s' h => Level.outcome_define hn h⟩
  · have hfound : cause.found ≠ some .deferred := by
      intro hfound
      refine (Lockstep.keeps_all.after trivial q).2 fault hq ⟨name, cause.expected, ?_⟩
      rw [hfault, ← hfound]
    exact ⟨hfound, fun h => hfound (KindError.found_of_foundText h)⟩

/-- A variable that stands for a deferred block that refers to another one: its value, a copy of it,
    and a condition that it is no boolean for. -/
theorem never_deferred_copied :
    let e : Engine := ⟨.default, ⟨[("x", .deferred [.element "" [[.text "y"]]]),
      ("y", .deferred [.text "t"])], []⟩⟩
    let l := level e.config (directive e.config) maxActive maxPrintDepth
    let copied := (l.block [.element "define" [[.text "z"], [.text "x"]]]).outcome
      ⟨e.environment, 0⟩
    let condition : Block := [.element "if" [[.text "x"], [.text "a"]]]
    ((e.evaluateBlock [.element "" [[.text "x"]]]).1 = .ok (some (.text "t")) ∧
      (Value.text "t").kind ≠ .deferred) ∧
      (copied.1 = .ok none ∧
        ∃ v, copied.2.environment.values.get? "z" = some v ∧ v.kind ≠ .deferred) ∧
      e.FailsWith (.text condition) (.typeMismatch "if" ⟨.boolean, some .text⟩) ∧
      (KindError.mk .boolean (some .text)).foundText ≠ "deferred block" := by
  intro e l copied condition
  obtain ⟨hvalue, hlevel, hfault⟩ := never_deferred e
  have hx : (e.evaluateBlock [.element "" [[.text "x"]]]).1 = .ok (some (.text "t")) := rfl
  have hcopied : copied = (.ok none, copied.2) := rfl
  have hcondition : e.FailsWith (.text condition) (.typeMismatch "if" ⟨.boolean, some .text⟩) := rfl
  obtain ⟨v, hv, hkind⟩ := (hlevel maxActive maxPrintDepth ⟨e.environment, 0⟩
    (Nat.le_add_left _ _)).2 [.text "z"] [.text "x"] none copied.2 hcopied
  exact ⟨⟨hx, hvalue _ _ hx⟩, ⟨rfl, v, hv, hkind⟩, hcondition,
    (hfault _ _ _ _ hcondition rfl).2⟩

end Engine

end BraceMarkup
