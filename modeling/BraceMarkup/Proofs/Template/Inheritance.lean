/-
  Templates that extend each other.

  A template may be nothing but an extension of another one, with overrides of
  its own.  A chain of such templates ends at its base.  Extending the template
  at the other end evaluates all overrides of the chain on the one environment,
  those furthest from the base first, and then the base.  Each link is one more
  element active, so that the only difference to evaluating the same blocks one
  after the other is how soon the limit is reached.

  * `Environment.Inherits`: a chain of templates down to its base;
  * `Engine.evaluateInTurn`: some blocks for what they bind, and then another
    one for its value;
  * `Engine.KeepsTemplates`: the blocks, in their turn, leave templates bound to
    what they are;
  * `Evaluation.Matches`: a computation comes to the limit, or does what a
    session does;
  * `Engine.matches_extension`: one link of the chain;
  * `Engine.matches_chain`: the whole chain, whatever is active already;
  * `Engine.evaluate_chain`: **extending a chain runs its overrides, and then
    its base**.
-/
import BraceMarkup.Proofs.Template.Composition
import BraceMarkup.Proofs.Template.Limit

namespace BraceMarkup

open Evaluation Engine

/-! ## Chains of templates -/

/-- The templates with these names are a chain: each stands for an extension of the next one, with
    overrides of its own, and the last of them for the block `base`. -/
inductive Environment.Inherits (E : Environment) (base : Block) :
    List String → List Block → Prop
  | base {name} : E.templates.get? name = some base → Inherits E base [name] []
  | extension {name parent binder own names overrides} :
      E.templates.get? name = some [.element "extends" [binder, own]] →
      bindingName binder = parent → Inherits E base (parent :: names) overrides →
      Inherits E base (name :: parent :: names) (own :: overrides)

theorem Environment.Inherits.congr {E F : Environment} {base : Block} {names : List String}
    {overrides : List Block} (h : E.Inherits base names overrides)
    (hsame : ∀ name ∈ names, F.templates.get? name = E.templates.get? name) :
    F.Inherits base names overrides := by
  induction h with
  | base hbase => exact .base ((hsame _ (List.mem_singleton_self _)).trans hbase)
  | extension hname hparent _ ih =>
    refine .extension ((hsame _ List.mem_cons_self).trans hname) hparent (ih fun name hn => ?_)
    exact hsame name (List.mem_cons_of_mem _ hn)

namespace Engine

/-- Evaluates some blocks, first to last, for what they bind, and then another one for its value.
    The first failure ends it. -/
def evaluateInTurn (e : Engine) (last : Block) :
    List Block → Except Failure (Option Value) × Engine
  | [] => e.evaluateBlock last
  | first :: rest =>
    match e.evaluateBlock first with
    | (.error f, e') => (.error f, e')
    | (.ok _, e') => e'.evaluateInTurn last rest

/-- Some blocks, evaluated first to last, leave these templates bound to what they are bound to. -/
def KeepsTemplates (names : List String) (e : Engine) : List Block → Prop
  | [] => True
  | first :: rest => ∀ v e', e.evaluateBlock first = (.ok v, e') →
      (∀ name ∈ names, e'.environment.templates.get? name = e.environment.templates.get? name) ∧
        KeepsTemplates names e' rest

end Engine

/-! ## Up to the limit -/

/-- The failure comes from the limit of active elements, in the document or in a module. -/
def Failure.IsLimit : Failure → Prop
  | .error e => e.IsLimit
  | .endless => False

/-- In the environment of a session, but with `a` elements active, the computation comes to the
    limit, or yields and leaves behind what is said of the session. -/
def Evaluation.Matches {α : Type} (x : Evaluation α) (a : Nat) (e : Engine)
    (r : Except Failure α × Engine) : Prop :=
  (∃ f s, x.outcome ⟨e.environment, a⟩ = (.error f, s) ∧ f.IsLimit) ∨
    x.outcome ⟨e.environment, a⟩ = (r.1, ⟨r.2.environment, a⟩) ∧ r.2.config = e.config

/-- A block is evaluated as by the session itself, at any level that suffices for the elements that
    may yet become active. -/
theorem Engine.matches_block (e : Engine) {n a : Nat} (hn : maxActive ≤ a + n) (b : Block) :
    ((level e.config (directive e.config) n maxPrintDepth).block b).Matches a e
      (e.evaluateBlock b) := by
  have hlaws : (Lockstep.upTo Failure.IsLimit).Laws a e.config e.config :=
    Lockstep.upTo_laws rfl (Lockstep.upTo_loaders e.config.loader)
      (fun name _ h => EvalError.IsLimit.imported h name) (.inr EvalError.isLimit_recursionLimit)
  have hlevels : (Lockstep.upTo Failure.IsLimit).Levels a 0
      (level e.config (directive e.config) n maxPrintDepth) (topLevel e.config) :=
    hlaws.level (Nat.zero_add a).symm hn (Nat.le_add_left _ _) (.inl rfl)
  rcases (hlevels.block (Lockstep.upTo_block a b)).upTo_cases e.environment with hlimit | heq
  · exact .inl hlimit
  · obtain ⟨r, F, hx, hy⟩ := heq
    refine .inr ⟨?_, rfl⟩
    simp only [evaluateBlock, run, hx, hy]

/-! ## One link -/

/-- What extending a template with some overrides yields: it is looked up before the overrides are
    evaluated. -/
theorem outcome_extendTemplate {l : Level} {name : String} {own base : Block}
    {s : EvaluationState} (h : s.environment.templates.get? name = some base) :
    (l.extendTemplate name [own]).outcome s =
      match (l.block own).outcome s with
      | (.ok _, s') => (l.block base).outcome s'
      | (.error f, s') => (.error f, s') := by
  have hlookup : (l.extendTemplate name [own]).outcome s =
      ((l.block own >>= fun _ => pure ()) >>= fun _ => l.block base).outcome s := by
    rw [Level.extendTemplate, outcome_bind, outcome_boundTemplate, h]
    rfl
  rw [hlookup, outcome_bind, outcome_bind]
  rcases (l.block own).outcome s with ⟨_ | _, _⟩ <;> rfl

namespace Engine

/-- **One link of a chain.**  The overrides are evaluated as by the session itself.  If what the
    template stands for is so in the session that they leave, then so is the extension. -/
theorem matches_extension (e : Engine) {n a : Nat} (hn : maxActive ≤ a + n)
    {binder own next : Block}
    (hlookup : e.environment.templates.get? (bindingName binder) = some next) {base : Block}
    {overrides : List Block}
    (hnext : ∀ v e', e.evaluateBlock own = (.ok v, e') → ∀ m, maxActive ≤ a + 1 + m →
      ((level e'.config (directive e'.config) m maxPrintDepth).block next).Matches (a + 1) e'
        (e'.evaluateInTurn base overrides)) :
    ((level e.config (directive e.config) n maxPrintDepth).block
      [.element "extends" [binder, own]]).Matches a e
        (e.evaluateInTurn base (own :: overrides)) := by
  by_cases ha : maxActive ≤ a
  · exact .inl ⟨_, _, outcome_element_limit ha,
      EvalError.isLimit_recursionLimit _⟩
  obtain ⟨m, rfl⟩ : ∃ m, n = m + 1 := Nat.exists_eq_add_one.2 (by omega)
  have hm : maxActive ≤ a + 1 + m := by omega
  have hdirective : ∀ l, directive e.config l "extends" [binder, own] =
      l.extendTemplate (bindingName binder) [own] := fun _ => rfl
  rw [Matches, outcome_element (Nat.lt_of_not_le ha), hdirective,
    outcome_extendTemplate hlookup, evaluateInTurn]
  rcases e.matches_block hm own with ⟨f, s, hx, hf⟩ | ⟨hx, hconfig⟩
  · rw [hx]
    exact .inl ⟨f, _, rfl, hf⟩
  generalize hown : e.evaluateBlock own = r at hx hconfig
  obtain ⟨result, e'⟩ := r
  rw [hx]
  cases result with
  | error f => exact .inr ⟨rfl, hconfig⟩
  | ok v =>
    have hmatches := hnext v e' hown m hm
    rw [show e'.config = e.config from hconfig] at hmatches
    rcases hmatches with ⟨f, s, hy, hf⟩ | ⟨hy, hconfig'⟩
    · simp only [hy]
      exact .inl ⟨f, _, rfl, hf⟩
    · simp only [hy]
      exact .inr ⟨rfl, hconfig'.trans hconfig⟩

theorem KeepsTemplates.mono {names fewer : List String} (hsub : fewer ⊆ names) {e : Engine}
    {blocks : List Block} (h : e.KeepsTemplates names blocks) : e.KeepsTemplates fewer blocks := by
  induction blocks generalizing e with
  | nil => trivial
  | cons first rest ih =>
    intro v e' hfirst
    obtain ⟨hsame, hrest⟩ := h v e' hfirst
    exact ⟨fun name hn => hsame name (hsub hn), ih hrest⟩

/-- **A chain**, whatever is active already: induction on its links, each of which is one more
    element active for those behind it. -/
theorem matches_chain {base : Block} {overrides : List Block} {name : String}
    {names : List String} {binder own : Block} {e : Engine} (hbinder : bindingName binder = name)
    (hchain : e.environment.Inherits base (name :: names) overrides)
    (hkept : e.KeepsTemplates (name :: names) (own :: overrides)) {n a : Nat}
    (hn : maxActive ≤ a + n) :
    ((level e.config (directive e.config) n maxPrintDepth).block
      [.element "extends" [binder, own]]).Matches a e
        (e.evaluateInTurn base (own :: overrides)) := by
  induction overrides generalizing name names binder own e n a with
  | nil =>
    subst hbinder
    cases hchain with
    | base hbase =>
      refine e.matches_extension hn hbase fun v e' _ m hm => ?_
      exact e'.matches_block hm base
  | cons parent overrides ih =>
    subst hbinder
    cases hchain with
    | extension hname hparent hrest =>
      refine e.matches_extension hn hname fun v e' hown m hm => ?_
      obtain ⟨hsame, hkept⟩ := hkept v e' hown
      have hrest' := hrest.congr fun name hn => hsame name (List.mem_cons_of_mem _ hn)
      exact ih hparent hrest' (hkept.mono (List.subset_cons_self _ _)) hm

/-- **Extending a chain runs its overrides, child first, and then its base.**  Let the template that
    is extended be the first of a chain, and let no overrides, evaluated in their turn, bind a
    template of the chain anew.  Unless the limit of active elements is reached, the extension
    yields the value or the fault, and leaves the environment, that its own overrides, those of the
    chain and then the base yield and leave one after the other in the same session.  All but the
    base are evaluated only for what they bind. -/
theorem evaluate_chain {e : Engine} {base binder own : Block} {name : String}
    {names : List String} {overrides : List Block} (hbinder : bindingName binder = name)
    (hchain : e.environment.Inherits base (name :: names) overrides)
    (hkept : e.KeepsTemplates (name :: names) (own :: overrides))
    (hlimit : ∀ fault, (e.evaluateBlock [.element "extends" [binder, own]]).1 =
      .error (.error fault) → ¬ fault.IsLimit) :
    e.evaluateBlock [.element "extends" [binder, own]] =
      e.evaluateInTurn base (own :: overrides) := by
  have hmatches := matches_chain hbinder hchain hkept (n := maxActive) (a := 0) (by omega)
  generalize e.evaluateInTurn base (own :: overrides) = r at hmatches
  rcases hmatches with ⟨f, s, hx, hf⟩ | ⟨hx, hconfig⟩
  · have hfails : (e.evaluateBlock [.element "extends" [binder, own]]).1 = .error f :=
      congrArg Prod.fst hx
    cases f with
    | error fault => exact absurd hf (hlimit fault hfails)
    | endless => exact hf.elim
  · obtain ⟨result, e'⟩ := r
    rw [evaluateBlock, run, topLevel, hx]
    obtain ⟨config, environment⟩ := e'
    obtain rfl : config = e.config := hconfig
    rfl

/-- A chain of two extensions.  The overrides next to the base are the last to bind `x`, and the
    value of the base stays a boolean. -/
theorem evaluate_chain_two :
    let define := fun name value => Node.element "define" [[.text name], [.text value]]
    let own : Block := [define "x" "own"]
    let child : Block := [define "x" "child", define "y" "child"]
    let parent : Block := [define "x" "true"]
    let base : Block := [.element "" [[.text "x"]]]
    let session := fun values => Engine.mk .default ⟨values, [("base", base),
      ("parent", [.element "extends" [[.text "base"], parent]]),
      ("child", [.element "extends" [[.text "parent"], child]])]⟩
    let e := session []
    let extension : Block := [.element "extends" [[.text " child "], own]]
    (bindingName [.text " child "] = "child" ∧
      e.environment.Inherits base ["child", "parent", "base"] [child, parent] ∧
      e.KeepsTemplates ["child", "parent", "base"] [own, child, parent] ∧
      ∀ fault, (e.evaluateBlock extension).1 = .error (.error fault) → ¬ fault.IsLimit) ∧
      (e.evaluateBlock extension).1 = .ok (some (.boolean true)) ∧
      e.evaluateBlock extension = e.evaluateInTurn base [own, child, parent] := by
  intro define own child parent base session e extension
  have hbinder : bindingName [.text " child "] = "child" := by decide +kernel
  have hchain : e.environment.Inherits base ["child", "parent", "base"] [child, parent] :=
    .extension rfl (by decide +kernel) (.extension rfl (by decide +kernel) (.base rfl))
  have hkept : e.KeepsTemplates ["child", "parent", "base"] [own, child, parent] := by
    have hown : e.evaluateBlock own = (.ok none, session [("x", .text "own")]) := rfl
    have hchild : (session [("x", .text "own")]).evaluateBlock child =
      (.ok (some (.text "")), session [("x", .text "child"), ("y", .text "child")]) := rfl
    have hparent : (session [("x", .text "child"), ("y", .text "child")]).evaluateBlock parent =
      (.ok none, session [("x", .boolean true), ("y", .text "child")]) := rfl
    intro v e₁ h
    cases hown.symm.trans h
    refine ⟨fun _ _ => rfl, fun v e₂ h => ?_⟩
    cases hchild.symm.trans h
    refine ⟨fun _ _ => rfl, fun v e₃ h => ?_⟩
    cases hparent.symm.trans h
    exact ⟨fun _ _ => rfl, trivial⟩
  have hvalue : (e.evaluateBlock extension).1 = .ok (some (.boolean true)) := rfl
  have hlimit : ∀ fault, (e.evaluateBlock extension).1 = .error (.error fault) →
      ¬ fault.IsLimit := by
    intro fault h
    cases hvalue.symm.trans h
  exact ⟨⟨hbinder, hchain, hkept, hlimit⟩, hvalue, evaluate_chain hbinder hchain hkept hlimit⟩

end Engine

end BraceMarkup
