/-
  Where modules come from.

  An evaluation takes from its loader only the modules it imports.  Two loaders
  that give the same for all these are the same to it, whatever imports what:
  what a module binds, the fault it ends in and the environment it leaves
  behind do not depend on where its text was found.

  What an evaluation imports is told by its loader.  Nothing handles a failed
  import, so that an evaluation that imports a module ends with the fault that
  there is no such module once the loader has none.

  * `Failure.Lacks`: an evaluation failed for want of a module;
  * `Loader.without`, `Loader.only`: a loader less one module, and less all but
    some;
  * `Engine.Imports`: an evaluation imports a module;
  * `Engine.SeesMisses`: an evaluation goes by what its loader gives, up to the
    first module that there is not;
  * `Engine.same_of_imports_known`: loaders that agree on the modules imported;
  * `Engine.files_eq_memory`: **modules in files and in a table**.
-/
import BraceMarkup.Proofs.Template.Limit
import BraceMarkup.Proofs.FileSystem.Paths

namespace BraceMarkup

/-! ## Modules that are not found -/

/-- The evaluation came to an import of a module, in its document or in another module, and there
    was no such module. -/
def Failure.Lacks (name : String) : Failure → Prop
  | .error e => e.innermost = .unloadable name (.notFound name)
  | .endless => False

/-- An evaluation fails for want of one module at most. -/
theorem Failure.Lacks.unique {f : Failure} {name other : String} (h : f.Lacks name)
    (ho : f.Lacks other) : name = other := by
  cases f with
  | error e => exact (EvalError.importFailed.inj (Eq.trans h.symm ho)).1
  | endless => exact ho.elim

/-- A loader less one module. -/
def Loader.without (k : Loader) (name : String) : Loader where
  load other := if other = name then .error (.notFound name) else k.load other

/-- A loader less all modules but the known ones. -/
def Loader.only (k : Loader) (known : String → Bool) : Loader where
  load name := if known name then k.load name else .error (.notFound name)

/-- Loaders that agree on the known modules are the same less the others. -/
theorem Loader.only_congr {k l : Loader} {known : String → Bool}
    (h : ∀ name, known name = true → k.load name = l.load name) : k.only known = l.only known := by
  refine congrArg Loader.mk (funext fun name => ?_)
  by_cases hname : known name = true
  · rw [if_pos hname, if_pos hname, h name hname]
  · rw [if_neg hname, if_neg hname]

namespace Engine

/-- The session with another loader. -/
def withLoader (e : Engine) (k : Loader) : Engine :=
  { e with config := { e.config with loader := some k } }

/-- Two evaluations with the same result, that leave the same environment behind. -/
def SameOutcome {α : Type} (x y : Except Failure α × Engine) : Prop :=
  x.1 = y.1 ∧ x.2.environment = y.2.environment

section
variable {α : Type} (run : Engine → Except Failure α × Engine)

/-- The evaluation `run` imports a module, itself or through other modules: without the module it
    fails for want of it. -/
def Imports (e : Engine) (name : String) : Prop :=
  ∃ k f, e.config.loader = some k ∧ (run (e.withLoader (k.without name))).1 = .error f ∧
    f.Lacks name

/-- The evaluation `run` imports known modules only. -/
def ImportsOnly (known : String → Bool) (e : Engine) : Prop :=
  ∀ name, e.Imports run name → known name = true

/-- The evaluation fails for want of a module that is missing. -/
def Misses (missing : String → Prop) (e : Engine) : Prop :=
  ∃ f name, (run e).1 = .error f ∧ f.Lacks name ∧ missing name

/-- The evaluation goes by what its loader gives: with two loaders of which the first gives what the
    second does, less some modules, it fails for want of one of these, or both are the same to
    it. -/
def SeesMisses : Prop :=
  ∀ (missing : String → Prop) (e : Engine) (k l : Loader),
    (∀ name, k.load name = l.load name ∨ k.load name = .error (.notFound name) ∧ missing name) →
    Misses run missing (e.withLoader k) ∨ SameOutcome (run (e.withLoader k)) (run (e.withLoader l))

end

/-! ## Evaluations go by their loaders -/

/-- Two evaluations with loaders of which the first lacks some modules. -/
theorem topLevel_lacking {missing : String → Prop} {c d : Config} {k l : Loader}
    (htrim : c.trimSpaces = d.trimSpaces) (hc : c.loader = some k) (hd : d.loader = some l)
    (h : ∀ name, k.load name = l.load name ∨
      k.load name = .error (.notFound name) ∧ missing name) :
    (Lockstep.upTo fun f => ∃ name, f.Lacks name ∧ missing name).Levels 0 0 (topLevel c)
      (topLevel d) := by
  refine (Lockstep.upTo_laws htrim (fun a name => ?_) (fun _ _ hlacks => hlacks) (.inl rfl)).level
    rfl (Nat.le_add_left _ _) (Nat.le_add_left _ _) (.inl rfl)
  rw [hc, hd]
  refine .some ?_
  rcases h name with heq | ⟨hnone, hmissing⟩
  · rw [heq]
    exact Lockstep.upTo_loaded _ a name
  · rw [hnone]
    exact .excused ⟨name, rfl, hmissing⟩

theorem seesMisses_of_alike {α : Type} (x : Level → Evaluation α)
    (hx : ∀ {excused : Failure → Prop} {l m : Level}, (Lockstep.upTo excused).Levels 0 0 l m →
      ∃ P, (Lockstep.upTo excused).Alike 0 0 P (x l) (x m)) :
    SeesMisses fun e => e.run (x (topLevel e.config)) := by
  intro missing e k l h
  obtain ⟨P, halike⟩ := hx (topLevel_lacking (c := (e.withLoader k).config)
    (d := (e.withLoader l).config) rfl rfl rfl h)
  rcases halike.upTo_cases e.environment with
    ⟨f, s, hfail, name, hlacks, hmissing⟩ | ⟨r, F, hk, hl⟩
  · exact .inl ⟨f, name, congrArg Prod.fst hfail, hlacks, hmissing⟩
  · refine .inr ⟨?_, ?_⟩
    · exact (congrArg Prod.fst hk).trans (congrArg Prod.fst hl).symm
    · exact (congrArg (·.2.environment) hk).trans (congrArg (·.2.environment) hl).symm

theorem seesMisses_evaluateBlock (b : Block) : SeesMisses (·.evaluateBlock b) :=
  seesMisses_of_alike (·.block b) fun h => ⟨_, h.block (Lockstep.upTo_block 0 b)⟩

theorem seesMisses_evaluate (b : Block) : SeesMisses (·.evaluate b) :=
  seesMisses_of_alike (·.blockText b) fun h => ⟨_, h.blockText (Lockstep.upTo_block 0 b)⟩

/-! ## Loaders that agree on what is imported -/

section
variable {α : Type} {run : Engine → Except Failure α × Engine} {e : Engine} {k l : Loader}
  {known : String → Bool}

/-- A loader less a module that is not known compares with one that has only known modules. -/
theorem only_or_without {name : String} (hname : known name = false) (other : String) :
    (k.only known).load other = (k.without name).load other ∨
      (k.only known).load other = .error (.notFound other) ∧ known other = false ∧
        other ≠ name := by
  by_cases heq : other = name
  · subst heq
    simp [Loader.only, Loader.without, hname]
  · cases hother : known other <;> simp [Loader.only, Loader.without, hother, heq]

/-- An evaluation imports only known modules if and only if it does not fail for want of another
    one where there are only the known ones. -/
theorem importsOnly_iff (hrun : SeesMisses run) :
    ImportsOnly run known (e.withLoader k) ↔
      ¬ Misses run (known · = false) (e.withLoader (k.only known)) := by
  constructor
  · rintro h ⟨f, name, hf, hlacks, hname⟩
    refine Bool.false_ne_true (hname.symm.trans (h name ⟨k, f, rfl, ?_, hlacks⟩))
    rcases hrun _ e _ _ (only_or_without (k := k) hname) with
      ⟨f', other, hf', hlacks', -, hne⟩ | ⟨hsame, -⟩
    · obtain rfl : f' = f := Except.error.inj (hf'.symm.trans hf)
      exact absurd (hlacks'.unique hlacks) hne
    · exact hsame.symm.trans hf
  · rintro h name ⟨k', f, ⟨⟩, hf, hlacks⟩
    refine (Bool.not_eq_false _).mp fun hname => h ?_
    rcases hrun _ e _ _ (only_or_without (k := k) hname) with
      ⟨f, other, hf, hlacks, hother, -⟩ | ⟨hsame, -⟩
    · exact ⟨f, other, hf, hlacks, hother⟩
    · exact ⟨f, name, hsame.trans hf, hlacks, hname⟩

/-- An evaluation that does not fail for want of a module where there are only the known ones is
    the same with the others. -/
theorem same_only (hrun : SeesMisses run)
    (h : ¬ Misses run (known · = false) (e.withLoader (k.only known))) :
    SameOutcome (run (e.withLoader (k.only known))) (run (e.withLoader k)) := by
  refine (hrun _ e _ k fun name => ?_).resolve_left h
  cases hname : known name <;> simp [Loader.only, hname]

/-- Loaders that agree on the known modules are the same to an evaluation that imports only these,
    with either of them. -/
theorem same_of_imports_known (hrun : SeesMisses run)
    (hagree : ∀ name, known name = true → k.load name = l.load name)
    (h : ImportsOnly run known (e.withLoader k) ∨ ImportsOnly run known (e.withLoader l)) :
    SameOutcome (run (e.withLoader k)) (run (e.withLoader l)) := by
  have honly : k.only known = l.only known := Loader.only_congr hagree
  rw [importsOnly_iff hrun, importsOnly_iff hrun, honly, or_self] at h
  have hk := same_only (k := k) hrun (honly ▸ h)
  have hl := same_only (k := l) hrun h
  rw [honly] at hk
  exact ⟨hk.1.symm.trans hl.1, hk.2.symm.trans hl.2⟩

end

/-! ## Files and tables -/

/-- **Modules in files and modules in a table are the same.**  Let a table have the texts of the
    files in a directory, and let reading a file give its content.  Then a block that imports only
    modules of the table, with either loader, is evaluated to the same value or fails with the same
    error, and leaves the same environment behind, whether the modules are found in the files or in
    the table. -/
theorem files_eq_memory {read : FileReader} {root : String} {content : String → Option ByteArray}
    {modules : List (String × String)}
    (hread : ∀ name bytes, content name = some bytes → read (joinPath root name) = .ok bytes)
    (hmodules : ∀ name, modules.lookup name = (content name).bind String.fromUTF8?)
    (e : Engine) (b : Block) :
    let files := e.withLoader (.files read root)
    let memory := e.withLoader (.memory modules)
    let inTable := fun name => (modules.lookup name).isSome
    (ImportsOnly (·.evaluateBlock b) inTable files ∨
        ImportsOnly (·.evaluateBlock b) inTable memory →
      SameOutcome (files.evaluateBlock b) (memory.evaluateBlock b)) ∧
    (ImportsOnly (·.evaluate b) inTable files ∨ ImportsOnly (·.evaluate b) inTable memory →
      SameOutcome (files.evaluate b) (memory.evaluate b)) := by
  intro files memory inTable
  have hagree : ∀ name, inTable name = true →
      (Loader.files read root).load name = (Loader.memory modules).load name := by
    intro name hname
    obtain ⟨source, hsource⟩ := Option.isSome_iff_exists.1 hname
    obtain ⟨bytes, hbytes, hutf8⟩ := Option.bind_eq_some_iff.1 ((hmodules name).symm.trans hsource)
    have htext : read.text (joinPath root name) = .ok source := by
      rw [FileReader.text, hread name bytes hbytes, bind_eq_ok_iff]
      exact ⟨bytes, rfl, by rw [hutf8]; rfl⟩
    simp only [Loader.files, Loader.memory, htext, hsource]
  exact ⟨same_of_imports_known (seesMisses_evaluateBlock b) hagree,
    same_of_imports_known (seesMisses_evaluate b) hagree⟩

/-- The bytes of a text are read as the text. -/
theorem fromUTF8?_toUTF8 (s : String) : String.fromUTF8? s.toUTF8 = some s := by
  rw [String.fromUTF8?, String.toUTF8_eq_toByteArray, dif_pos s.isValidUTF8]
  rfl

/-- A module that imports another one, and a module that imports itself. -/
theorem files_eq_memory_nested :
    let modules := [("base", "#define\x7bx\x7d\x7bbase\x7d"),
      ("outer", "#import\x7bbase\x7d#define\x7by\x7d\x7b#\x7bx\x7d-outer\x7d"),
      ("self", "#import\x7bself\x7d")]
    let s : FileSystem :=
      { files := modules.map fun entry => (["lib", entry.1], entry.2.toUTF8), working := [] }
    let files := (Engine.ofConfig .default).withLoader (.files s.read "lib")
    let memory := (Engine.ofConfig .default).withLoader (.memory modules)
    let nested : Block := [.element "import" [[.text "outer"]], .element "" [[.text "y"]]]
    let cyclic : Block := [.element "import" [[.text "self"]]]
    (∀ b ∈ [nested, cyclic],
      ImportsOnly (·.evaluate b) (fun name => (modules.lookup name).isSome) memory ∧
        SameOutcome (files.evaluate b) (memory.evaluate b)) ∧
      (files.evaluate nested).1 = .ok "base-outer" ∧
      (files.evaluate cyclic).1 =
        .error (.error (Nat.repeat (.imported "self") 128 (.recursionLimit "import"))) := by
  intro modules s files memory nested cyclic
  have hread : ∀ name bytes, (modules.lookup name).map String.toUTF8 = some bytes →
      s.read (joinPath "lib" name) = .ok bytes := by
    intro name bytes h
    obtain ⟨source, hsource, rfl⟩ := Option.map_eq_some_iff.1 h
    have hmem : (name, source) ∈ modules := by
      obtain ⟨before, after, heq, -⟩ := List.lookup_eq_some_iff.1 hsource
      simp [heq]
    have hfile : IsFileName name ∧ FileSystem.pathFault? (joinPath "lib" name) = none ∧
        s.content? [name, "lib"].reverse = some source.toUTF8 := by
      simp only [modules, List.mem_cons, Prod.mk.injEq, List.not_mem_nil, or_false] at hmem
      rcases hmem with ⟨rfl, rfl⟩ | ⟨rfl, rfl⟩ | ⟨rfl, rfl⟩ <;>
        exact ⟨⟨by decide, by decide⟩, by decide +kernel, rfl⟩
    obtain ⟨hname, hpath, hcontent⟩ := hfile
    exact FileSystem.read_joinPath hname (by decide +kernel) hpath hcontent rfl
  have hmodules : ∀ name, modules.lookup name =
      ((modules.lookup name).map String.toUTF8).bind String.fromUTF8? := by
    intro name
    cases modules.lookup name with
    | none => rfl
    | some source => exact (fromUTF8?_toUTF8 source).symm
  -- what is imported shows where there is nothing but the table
  let only := (Engine.ofConfig .default).withLoader
    ((Loader.memory modules).only fun name => (modules.lookup name).isSome)
  have hsame : ∀ b, (∀ f name, (only.evaluate b).1 = .error f → ¬ f.Lacks name) →
      ImportsOnly (·.evaluate b) (fun name => (modules.lookup name).isSome) memory ∧
        SameOutcome (files.evaluate b) (memory.evaluate b) := by
    intro b hfound
    have himports :
        ImportsOnly (·.evaluate b) (fun name => (modules.lookup name).isSome) memory := by
      rw [importsOnly_iff (seesMisses_evaluate b)]
      rintro ⟨f, name, hf, hlacks, -⟩
      exact hfound f name hf hlacks
    exact ⟨himports,
      (files_eq_memory hread hmodules (.ofConfig .default) b).2 (.inr himports)⟩
  have hnested := hsame nested fun f name hf => by
    have hok : (only.evaluate nested).1 = .ok "base-outer" := by decide +kernel
    simp [hok] at hf
  have hcyclic := hsame cyclic fun f name hf => by
    have herror : (only.evaluate cyclic).1 =
        .error (.error (Nat.repeat (.imported "self") 128 (.recursionLimit "import"))) := by
      decide +kernel
    rw [herror] at hf
    cases hf
    rintro ⟨⟩
  refine ⟨by simpa using ⟨hnested, hcyclic⟩, hnested.2.1.trans ?_, hcyclic.2.1.trans ?_⟩
  · decide +kernel
  · decide +kernel

end Engine

end BraceMarkup
