/-
  Failed imports keep the whole story.

  However deep the imports, the fault that an evaluation ends with names every
  module on the way to the one that failed, in the order in which they were
  loaded, and what failed there.  Nothing is taken back that any of the modules
  has bound.

  * `Engine.entered`: the environment in which the outermost of the modules was
    loaded;
  * `Engine.exists_loadsFail`: the loads behind the fault of an import;
  * `Config.ImportsOnly`: a module with an import of another one and nothing
    else to do;
  * `outcome_importsOnly`: such modules one after the other, up to the limit of
    active elements;
  * `Engine.failed_import`: **a failed import tells of every load behind it**,
    and a cycle of modules comes to the limit.
-/
import BraceMarkup.Proofs.Template.Composition
import BraceMarkup.Proofs.Template.Loads
import BraceMarkup.Proofs.Template.ReadOnly

namespace BraceMarkup

open Evaluation

/-! ## The loads behind a failed query -/

namespace Engine

/-- The environment that a query comes to before an import that fails, which is what it leaves
    behind if such imports put the environment back. -/
def entered (e : Engine) (q : Query) : Environment :=
  let l := level e.config (rewinding e.config) maxActive maxPrintDepth
  match q with
  | .value b => (e.run (l.block b)).2.environment
  | .text b => (e.run (l.blockText b)).2.environment

/-- A computation in a session that fails at an import. -/
theorem loadsFail_of_tells {α : Type} {e : Engine} {x y : Evaluation α} {fault : EvalError}
    (h : Tells e.config 0 1 x y) (hx : (e.run x).1 = .error (.error fault))
    (hfault : fault.IsImport) :
    ∃ first rest, first.environment = (e.run y).2.environment ∧ 0 < first.active ∧
      first.active ≤ maxActive ∧
      e.config.LoadsFail (first :: rest) fault (e.run x).2.environment := by
  have hxy := h e.environment
  unfold run at hx ⊢
  generalize x.outcome ⟨e.environment, 0⟩ = o, y.outcome ⟨e.environment, 0⟩ = o' at hxy hx ⊢
  cases hxy with
  | same hr => exact absurd hfault (hr fault hx)
  | imported hlow hmax hloads =>
    cases hx
    exact ⟨_, _, rfl, hlow, hmax, hloads⟩
  | endless => cases hx

theorem exists_loadsFail {e : Engine} {q : Query} {fault : EvalError} (h : e.FailsWith q fault)
    (hfault : fault.IsImport) :
    ∃ first rest, first.environment = e.entered q ∧ 0 < first.active ∧
      first.active ≤ maxActive ∧
      e.config.LoadsFail (first :: rest) fault (e.after q).environment := by
  have hlevel : LevelTells e.config 0 (topLevel e.config)
      (level e.config (rewinding e.config) maxActive maxPrintDepth) :=
    tells_level (Nat.le_add_left _ _) maxPrintDepth
  cases q with
  | value b => exact loadsFail_of_tells (hlevel.block b) h hfault
  | text b => exact loadsFail_of_tells (hlevel.blockText b) h hfault

end Engine

/-! ## Modules that import each other -/

/-- The only element in the document of a module is an import of the next one. -/
def Config.ImportsOnly (c : Config) (name next : String) : Prop :=
  ∃ b binder, c.Gives name (.ok b) ∧ Block.elements b = [("import", [binder])] ∧
    bindingName binder = next

/-- **Modules of which each imports the next** are loaded until too many elements are active. -/
theorem outcome_importsOnly {c : Config} {modules : Nat → String}
    (h : ∀ i, c.ImportsOnly (modules i) (modules (i + 1))) (depth : Nat) (E : Environment)
    {k a n i : Nat} (hk : a + k = maxActive) (hn : k ≤ n) {b binder : Block}
    (hb : b.elements = [("import", [binder])]) (hname : bindingName binder = modules i) :
    let fault : EvalError :=
      ((List.range' i k).map modules).foldr .imported (.recursionLimit "import")
    ((level c (directive c) n depth).block b).outcome ⟨E, a⟩ =
      (.error (.error fault), ⟨E, a⟩) := by
  intro fault
  refine (level_regular c (directive c) n depth).outcome_error hb ?_
  induction k generalizing a n i b binder with
  | zero => exact outcome_element_limit (Nat.le_of_eq hk.symm)
  | succ k ih =>
    obtain ⟨n, rfl⟩ : ∃ m, n = m + 1 := Nat.exists_eq_add_one.2 (by omega)
    obtain ⟨b', binder', hgives, hb', hname'⟩ := h i
    obtain ⟨loader, source, hloader, hload, hsource⟩ := Config.gives_ok_iff.1 hgives
    -- the document of the module, with one more element active
    have hdocument := (level_regular c (directive c) n depth).outcome_error hb'
      (ih (a := a + 1) (by omega) (by omega) hb' hname')
    rw [outcome_element (by omega), directive_import, hname, outcome_bind]
    simp only [Level.importModule, hloader, hload, outcome_document _ _ hsource, hdocument]
    rfl

/-! ## Every failed import -/

namespace Engine

/-- A query fails as its block does. -/
theorem failsWith_of_block {e : Engine} {q : Query} {fault : EvalError}
    (h : ((topLevel e.config).block q.block).outcome ⟨e.environment, 0⟩ =
      (.error (.error fault), ⟨e.environment, 0⟩)) : e.FailsWith q fault ∧ e.after q = e := by
  cases q with
  | value b =>
    rw [Query.block] at h
    have hrun : e.evaluateBlock b = (.error (.error fault), e) := by
      rw [evaluateBlock, run, h]
    exact ⟨congrArg Prod.fst hrun, congrArg Prod.snd hrun⟩
  | text b =>
    rw [Query.block] at h
    have hrun : e.evaluate b = (.error (.error fault), e) := by
      rw [evaluate, run, Level.blockText, outcome_bind, h]
    exact ⟨congrArg Prod.fst hrun, congrArg Prod.snd hrun⟩

/-- A cycle of modules, and a query that imports one of them. -/
theorem failsWith_of_cycle {e : Engine} {p : Nat} {cycle : Fin (p + 1) → String}
    (h : ∀ i, e.config.ImportsOnly (cycle i) (cycle (i + 1))) {i : Fin (p + 1)} {q : Query}
    {binder : Block} (hq : q.block.elements = [("import", [binder])])
    (hname : bindingName binder = cycle i) :
    ∃ fault, e.FailsWith q fault ∧ e.after q = e ∧
      fault.imports = (List.range maxActive).map (fun j => cycle (i + Fin.ofNat (p + 1) j)) ∧
      fault.root = .fault (.recursionLimit "import") := by
  let modules (j : Nat) : String := cycle (i + Fin.ofNat (p + 1) j)
  have hmodules : ∀ j, e.config.ImportsOnly (modules j) (modules (j + 1)) := by
    intro j
    have hnext : i + Fin.ofNat (p + 1) j + 1 = i + Fin.ofNat (p + 1) (j + 1) := by
      have hone : (1 : Fin (p + 1)).val = 1 % (p + 1) := rfl
      refine Fin.ext ?_
      simp only [Fin.val_add, Fin.val_ofNat, hone, Nat.mod_add_mod, Nat.add_mod_mod, Nat.add_assoc]
    simpa only [hnext] using h (i + Fin.ofNat (p + 1) j)
  have hfirst : bindingName binder = modules 0 := by simpa [modules] using hname
  let fault : EvalError :=
    ((List.range' 0 maxActive).map modules).foldr .imported (.recursionLimit "import")
  have hblock : ((topLevel e.config).block q.block).outcome ⟨e.environment, 0⟩ =
      (.error (.error fault), ⟨e.environment, 0⟩) :=
    outcome_importsOnly hmodules maxPrintDepth e.environment (Nat.zero_add _) (Nat.le_refl _) hq
      hfirst
  obtain ⟨hfails, hafter⟩ := failsWith_of_block hblock
  obtain ⟨himports, hroot⟩ := EvalError.imports_foldr_imported
    ((List.range' 0 maxActive).map modules) (.recursionLimit "import")
  refine ⟨fault, hfails, hafter, ?_, hroot⟩
  rw [himports, List.range_eq_range']
  exact List.append_nil _

/-- **A failed import tells the whole story.**  Let a query fail at an import.  Behind its fault are
    the imports that failed with it, one at least and no more than elements may be active, and then
    a single cause that is no import: a reason why there is no document, or what failed in the last
    module of itself.  All of them are reported, and nothing else.  The message names the modules
    one after the other and ends with that of the cause.

    They are the modules that were loaded, each while the document of the one before it was
    evaluated, in the environment that this had come to.  The environment that is left behind is
    the one in which the last of them failed, where all is bound that was bound when any of the
    loads began.

    In a cycle of modules that hold nothing but an import of the next one, as many are loaded as
    elements may be active, and one import more comes to the limit. -/
theorem failed_import (e : Engine) :
    (∀ q fault, e.FailsWith q fault → fault.IsImport →
      (1 ≤ fault.imports.length ∧ fault.imports.length ≤ maxActive) ∧
      (fault.chain.map Cause.module? = fault.imports.map some ++ [none] ∧
        fault.chain.getLast? = some fault.root ∧
        fault.causes = fault.chain.tail.flatMap Cause.reported) ∧
      fault.message = String.intercalate ": "
        (fault.imports.map EvalError.importMessage ++ [fault.root.message]) ∧
      ∃ first rest, e.config.LoadsFail (first :: rest) fault (e.after q).environment ∧
        fault.imports = (first :: rest).map (·.module) ∧ first.environment = e.entered q ∧
        ∀ load ∈ first :: rest, 0 < load.active ∧ load.active ≤ maxActive ∧
          load.environment.BoundIn (e.after q).environment) ∧
    ∀ p, ∀ cycle : Fin (p + 1) → String,
      (∀ i, e.config.ImportsOnly (cycle i) (cycle (i + 1))) →
      ∀ i (q : Query) binder, q.block.elements = [("import", [binder])] →
        bindingName binder = cycle i →
        ∃ fault, e.FailsWith q fault ∧ e.after q = e ∧
          fault.imports = (List.range maxActive).map (fun j => cycle (i + Fin.ofNat (p + 1) j)) ∧
          fault.root = .fault (.recursionLimit "import") := by
  refine ⟨fun q fault hq hfault => ?_, fun p cycle hcycle i q binder hq hname =>
    failsWith_of_cycle hcycle hq hname⟩
  obtain ⟨first, rest, hentered, hpos, hmax, hloads⟩ := exists_loadsFail hq hfault
  have hlength : fault.imports.length = rest.length + 1 := by
    rw [hloads.imports_eq, List.length_map, List.length_cons]
  have hle := hloads.length_le hmax
  refine ⟨by omega, ⟨fault.chain_modules, fault.getLast?_chain, fault.causes_eq⟩,
    fault.message_eq, first, rest, hloads, hloads.imports_eq, hentered, fun load hload => ?_⟩
  obtain ⟨hfirst, hactive⟩ := hloads.active_mem hmax load hload
  exact ⟨by omega, hactive, hloads.boundIn load hload⟩

/-- A module that imports another one, which refers to a name that is not bound, and two modules
    that import each other. -/
theorem failed_import_unbound :
    let e : Engine := ⟨⟨false, some (.memory [("a", "#define\x7bx\x7d\x7b1\x7d#import\x7bb\x7d"),
      ("b", "#define\x7by\x7d\x7b2\x7d#\x7bz\x7d"), ("p", "#import\x7bq\x7d"),
      ("q", "#import\x7bp\x7d")])⟩, .empty⟩
    let q : Query := .text [.text "v: ", .element "import" [[.text "a"]]]
    let fault : EvalError := .imported "a" (.imported "b" (.unbound "z"))
    (e.FailsWith q fault ∧ fault.IsImport) ∧
      fault.message = "cannot import \"a\": cannot import \"b\": no binding for \"z\"" ∧
      (∃ first rest, e.config.LoadsFail (first :: rest) fault (e.after q).environment ∧
        ["a", "b"] = (first :: rest).map (·.module)) ∧
      ∃ endless, e.FailsWith (.value [.element "import" [[.text "q"]]]) endless ∧
        endless.imports.length = 128 ∧ endless.root = .fault (.recursionLimit "import") := by
  intro e q fault
  have hq : e.FailsWith q fault := by
    show (e.evaluate _).1 = _
    decide +kernel
  have hfault : fault.IsImport := List.cons_ne_nil _ _
  let cycle (i : Fin 2) : String := if i = 0 then "p" else "q"
  have hcycle : ∀ i, e.config.ImportsOnly (cycle i) (cycle (i + 1)) := by
    have hpq : Block.ofSource "#import\x7bq\x7d" = .ok [.element "import" [[.text "q"]]] := by
      decide +kernel
    have hqp : Block.ofSource "#import\x7bp\x7d" = .ok [.element "import" [[.text "p"]]] := by
      decide +kernel
    refine Fin.forall_fin_two.2 ⟨?_, ?_⟩
    · exact ⟨_, _, Config.gives_ok_iff.2 ⟨_, _, rfl, rfl, hpq⟩, rfl, rfl⟩
    · exact ⟨_, _, Config.gives_ok_iff.2 ⟨_, _, rfl, rfl, hqp⟩, rfl, rfl⟩
  obtain ⟨hfailed, hcycles⟩ := failed_import e
  obtain ⟨-, -, hmessage, first, rest, hloads, himports, -⟩ := hfailed q fault hq hfault
  refine ⟨⟨hq, hfault⟩, hmessage.trans rfl, ⟨first, rest, hloads, himports⟩, ?_⟩
  obtain ⟨endless, hendless, -, hnames, hroot⟩ := hcycles 1 cycle hcycle 1
    (.value [.element "import" [[.text "q"]]]) [.text "q"] rfl rfl
  refine ⟨endless, hendless, ?_, hroot⟩
  rw [hnames, List.length_map, List.length_range]
  rfl

end Engine

end BraceMarkup
