/-
  What one evaluation keeps.

  The plainest use of a comparison is that of an evaluation with itself, for
  what can be said of all environments it comes to, and of the failures it can
  end in.

  * `Lockstep.invariant`: an evaluation and itself, in environments of a kind;
  * `Lockstep.Keeps`: no binding leads out of the environments of the kind, and
    all failures in them are of a kind;
  * `Lockstep.Keeps.laws`: that is all there is to show;
  * `Lockstep.Alike.invariant_cases`: the outcome of a computation;
  * `Engine.FailsWith`, `Lockstep.Keeps.after`: queries that fail, and what a
    query leaves behind.
-/
import BraceMarkup.Proofs.Template.Session

namespace BraceMarkup

namespace Lockstep

/-- An evaluation and itself, in environments that `holds` is true of. -/
def invariant (holds : Environment → Prop) (failure : Failure → Prop) : Lockstep where
  environments E F := E = F ∧ holds E
  name _ := True
  element _ _ _ := True
  value _ := True
  item _ := True
  failure := failure
  excused _ := False

/-- Bindings keep to the environments that `holds` is true of, and there all failures are of the
    kind `failure`. -/
structure Keeps (holds : Environment → Prop) (failure : Failure → Prop) : Prop where
  setVariable {E : Environment} (name : String) (value : Value) :
    holds E → holds (E.setVariable name value)
  setTemplate {E : Environment} (name : String) (b : Block) : holds E → holds (E.setTemplate name b)
  unbound {E : Environment} {name : String} : holds E → E.values.get? name = none →
    failure (.error (.unbound name))
  unboundTemplate {E : Environment} {name : String} : holds E → E.templates.get? name = none →
    failure (.error (.unboundTemplate name))
  plain {e : EvalError} : e.IsPlain → failure (.error e)
  unloadable (name : String) (reason : Unavailable) : failure (.error (.unloadable name reason))
  imported {e : EvalError} (name : String) : failure (.error e) →
    failure (.error (.imported name e))
  recursionLimit (name : String) : failure (.error (.recursionLimit name))
  endless : failure .endless

section
variable {holds : Environment → Prop} {failure : Failure → Prop}

theorem invariant_block (a : Nat) (b : Block) : (invariant holds failure).block a b :=
  fun _ _ _ => trivial

theorem Keeps.setVariables (h : Keeps holds failure) {E : Environment} (hE : holds E)
    (more : List (String × Value)) : holds (E.setVariables more) := by
  induction more generalizing E with
  | nil => exact hE
  | cons entry rest ih => exact ih (h.setVariable entry.1 entry.2 hE)

theorem Keeps.loaders (h : Keeps holds failure) (loader : Option Loader) (a : Nat)
    (name : String) : (invariant holds failure).Loaders a name loader loader := by
  cases loader with
  | none => exact .none
  | some k =>
    refine .some ?_
    cases k.load name with
    | error e => exact .error (h.unloadable name e)
    | ok module =>
      cases module with
      | document source =>
        exact .document (fun b _ => invariant_block a b) fun e _ => h.unloadable name _
      | bindings values =>
        refine .bindings fun E F hE => ?_
        obtain ⟨rfl, hE⟩ := hE
        exact ⟨rfl, h.setVariables hE values⟩

theorem Keeps.laws (h : Keeps holds failure) (c : Config) :
    (invariant holds failure).Laws 0 c c where
  trimSpaces := rfl
  lookupVariable {E F name} hE _ := by
    obtain ⟨rfl, hE⟩ := hE
    refine ⟨rfl, ?_⟩
    cases hv : E.values.get? name with
    | none => exact h.unbound hE hv
    | some v => trivial
  lookupTemplate {E F name} hE _ := by
    obtain ⟨rfl, hE⟩ := hE
    refine ⟨rfl, ?_⟩
    cases hb : E.templates.get? name with
    | none => exact h.unboundTemplate hE hb
    | some b => exact fun a => invariant_block a b
  arguments _ _ := ⟨trivial, invariant_block _ _⟩
  inlined _ _ := invariant_block _ _
  define _ _ _ _ hE := by
    obtain ⟨rfl, hE⟩ := hE
    exact ⟨rfl, h.setVariable _ _ hE⟩
  foreach _ _ _ hE := by
    obtain ⟨rfl, hE⟩ := hE
    exact ⟨rfl, h.setVariable _ _ hE⟩
  template _ _ hE := by
    obtain ⟨rfl, hE⟩ := hE
    exact ⟨rfl, h.setTemplate _ _ hE⟩
  importModule _ _ := h.loaders c.loader _ _
  text _ := trivial
  number _ := trivial
  boolean _ := trivial
  items _ _ := trivial
  value_of_item _ := trivial
  deferred _ := invariant_block _ _
  endless _ := .inr h.endless
  plain := h.plain
  imported := h.imported _
  excused_imported h := h.elim
  limit _ _ := .inr ⟨rfl, h.recursionLimit _⟩

/-- At any level that suffices for the elements that may yet become active, an evaluation compares
    with itself. -/
theorem Keeps.levels (h : Keeps holds failure) (c : Config) {n a : Nat} (hn : maxActive ≤ a + n)
    (depth : Nat) : (invariant holds failure).Levels a a
      (BraceMarkup.level c (BraceMarkup.directive c) n depth)
      (BraceMarkup.level c (BraceMarkup.directive c) n depth) :=
  (h.laws c).level rfl hn hn (.inl rfl)

/-- The outcome of a computation that compares with itself.  As many elements are active behind it
    as before. -/
theorem Alike.invariant_cases {α : Type} {P : α → Prop} {x : Evaluation α} {s : EvaluationState}
    (h : (invariant holds failure).Alike s.active s.active P x x) (hs : holds s.environment) :
    ∃ r s', x.outcome s = (r, s') ∧ (s'.active = s.active ∧ holds s'.environment) ∧
      (∀ v, r = .ok v → P v) ∧ ∀ f, r = .error f → failure f := by
  have hx := h s.environment s.environment ⟨rfl, hs⟩
  change (invariant holds failure).Outcomes s.active s.active P (x.outcome s) (x.outcome s) at hx
  generalize x.outcome s = o at hx ⊢
  cases hx with
  | ok hv hE => exact ⟨_, _, rfl, ⟨rfl, hE.2⟩, by rintro _ ⟨⟩; exact hv, by rintro _ ⟨⟩⟩
  | error hf hE => exact ⟨_, _, rfl, ⟨rfl, hE.2⟩, by rintro _ ⟨⟩, by rintro _ ⟨⟩; exact hf⟩
  | excused hf => exact hf.elim

end

end Lockstep

/-! ## Queries -/

/-- The query fails with a fault in the template. -/
def Engine.FailsWith (e : Engine) (q : Query) (fault : EvalError) : Prop :=
  match q with
  | .value b => (e.evaluateBlock b).1 = .error (.error fault)
  | .text b => (e.evaluate b).1 = .error (.error fault)

namespace Lockstep

variable {holds : Environment → Prop} {failure : Failure → Prop} {e : Engine}

/-- A computation in a session. -/
theorem Alike.invariant_run {α : Type} {P : α → Prop} {x : Evaluation α}
    (h : (invariant holds failure).Alike 0 0 P x x) (he : holds e.environment) :
    holds (e.run x).2.environment ∧ ∀ f, (e.run x).1 = .error f → failure f := by
  obtain ⟨r, s, hx, ⟨-, hs⟩, -, hf⟩ := Alike.invariant_cases (s := ⟨e.environment, 0⟩) h he
  unfold Engine.run
  rw [hx]
  exact ⟨hs, hf⟩

/-- A query leaves an environment of the kind, and can only fail in ways of the kind. -/
theorem Keeps.after (h : Keeps holds failure) (he : holds e.environment) (q : Query) :
    holds (e.after q).environment ∧
      ∀ fault, e.FailsWith q fault → failure (.error fault) := by
  have hlevels : (invariant holds failure).Levels 0 0 (Engine.topLevel e.config)
      (Engine.topLevel e.config) := h.levels e.config (Nat.le_add_left _ _) maxPrintDepth
  cases q with
  | value b =>
    obtain ⟨hafter, hfailure⟩ := (hlevels.block (invariant_block 0 b)).invariant_run he
    exact ⟨hafter, fun fault hfault => hfailure _ hfault⟩
  | text b =>
    obtain ⟨hafter, hfailure⟩ := (hlevels.blockText (invariant_block 0 b)).invariant_run he
    exact ⟨hafter, fun fault hfault => hfailure _ hfault⟩

end Lockstep

end BraceMarkup
