/-
  The loads behind a failed import.

  When an evaluation fails with the fault of an import, the module was loaded
  and failed in turn, perhaps at an import of its own.  Where each of these
  loads began is told by a second evaluation that is the same, but for imports
  that fail: those put the environment back.  It ends where the first one does,
  with the environment in which the failing import came to its module.

  * `Evaluation.rewound`, `rewinding`: computations that put the environment
    back where they fail, and elements whose imports do;
  * `Config.Gives`: what the loader has of a module;
  * `Load`, `Config.Fails`, `Config.LoadsFail`: loads inside each other, the
    innermost of which fails, and the environment that is left behind;
  * `Config.LoadsFail.imports_eq`, `Config.LoadsFail.length_le`,
    `Config.LoadsFail.boundIn`: the names of the modules, how many there can be,
    and what is bound in the end;
  * `Told`, `Tells`: two outcomes, and two computations, that are the same up to
    the loads behind a failed import;
  * `tells_level`: **the levels tell of every failed import** the loads behind
    it.
-/
import BraceMarkup.Proofs.Template.Bound
import BraceMarkup.Proofs.Template.Causes

namespace BraceMarkup

open Evaluation EvalError

/-! ## Imports that put the environment back -/

section
variable {α : Type}

/-- The computation, which leaves the environment as it was if it fails. -/
def Evaluation.rewound (x : Evaluation α) : Evaluation α := do
  let s ← get
  tryCatch x fun failure => do
    change fun _ => s.environment
    throw failure

theorem outcome_rewound (x : Evaluation α) (s : EvaluationState) :
    x.rewound.outcome s =
      match x.outcome s with
      | (.ok v, s') => (.ok v, s')
      | (.error f, s') => (.error f, { s' with environment := s.environment }) := by
  show (tryCatch x fun failure => do change fun _ => s.environment; throw failure).outcome s = _
  rw [outcome_tryCatch]
  rcases x.outcome s with ⟨_ | _, _⟩ <;> rfl

/-- A computation that leaves the environment alone where it fails. -/
theorem rewound_fail (e : EvalError) : (fail e : Evaluation α).rewound = fail e := rfl

theorem rewound_change (f : Environment → Environment) : (change f).rewound = change f := rfl

/-- What comes behind the computation can be put into it, if it cannot fail. -/
theorem rewound_bind_pure {β : Type} (x : Evaluation α) (v : β) :
    (x >>= fun _ => pure v).rewound = x.rewound >>= fun _ => pure v := by
  refine ext_outcome fun s => ?_
  rw [outcome_rewound, outcome_bind, outcome_bind, outcome_rewound]
  rcases x.outcome s with ⟨_ | _, _⟩ <;> rfl

end

/-- What an element does, if imports that fail leave the environment as it was. -/
def rewinding (config : Config) (l : Level) : ElementEvaluator := fun name arguments =>
  if Directive.ofName? name = some .importModule then (directive config l name arguments).rewound
  else directive config l name arguments

/-! ## Loads -/

/-- What the loader has of a module: its document, or a reason why there is none. -/
inductive Config.Gives (c : Config) (name : String) : Except Unavailable Block → Prop
  | error {loader : Loader} {e : Unavailable} : c.loader = some loader →
      loader.load name = .error e → c.Gives name (.error e)
  | document {loader : Loader} {source : String} : c.loader = some loader →
      loader.load name = .ok (.document source) →
      c.Gives name ((Block.ofSource source).mapError .malformed)

theorem Config.gives_ok_iff {c : Config} {name : String} {b : Block} :
    c.Gives name (.ok b) ↔ ∃ loader source, c.loader = some loader ∧
      loader.load name = .ok (.document source) ∧ Block.ofSource source = .ok b := by
  constructor
  · intro h
    generalize hr : Except.ok b = r at h
    cases h with
    | error => cases hr
    | @document loader source hloader hload =>
      refine ⟨loader, source, hloader, hload, ?_⟩
      cases hb : Block.ofSource source with
      | error e =>
        rw [hb] at hr
        cases hr
      | ok b' =>
        rw [hb] at hr
        cases hr
        rfl
  · rintro ⟨loader, source, hloader, hload, hb⟩
    have hgives := Config.Gives.document hloader hload
    rwa [hb] at hgives

/-- The load of a module, when it begins. -/
structure Load where
  module : String
  /-- How many elements are active, with the import. -/
  active : Nat
  environment : Environment

namespace Config

/-- At a level that suffices, the document `b` of a module is evaluated to a fault, and leaves `F`
    behind.  If imports that fail put the environment back, it leaves `G` behind. -/
def Fails (c : Config) (load : Load) (b : Block) (fault : EvalError) (F G : Environment) : Prop :=
  ∃ n depth, maxActive ≤ load.active + n ∧
    ((level c (directive c) n depth).block b).outcome ⟨load.environment, load.active⟩ =
      (.error (.error fault), ⟨F, load.active⟩) ∧
    ((level c (rewinding c) n depth).block b).outcome ⟨load.environment, load.active⟩ =
      (.error (.error fault), ⟨G, load.active⟩)

/-- Loads inside each other, outermost first, that fail together.  The fault of the outermost import
    is given, and the environment that is left behind. -/
inductive LoadsFail (c : Config) : List Load → EvalError → Environment → Prop
  /-- There is no document. -/
  | unloadable {load : Load} {e : Unavailable} : c.Gives load.module (.error e) →
      LoadsFail c [load] (.unloadable load.module e) load.environment
  /-- The document fails of itself. -/
  | own {load : Load} {b : Block} {fault : EvalError} {F : Environment} :
      c.Gives load.module (.ok b) → ¬ fault.IsImport → c.Fails load b fault F F →
      LoadsFail c [load] (.imported load.module fault) F
  /-- The document fails at an import, which is loaded in the environment that the document has
      come to. -/
  | nested {load next : Load} {rest : List Load} {b : Block} {fault : EvalError}
      {F : Environment} : c.Gives load.module (.ok b) → load.active < next.active →
      next.active ≤ maxActive → c.Fails load b fault F next.environment →
      LoadsFail c (next :: rest) fault F →
      LoadsFail c (load :: next :: rest) (.imported load.module fault) F

variable {c : Config} {load : Load} {loads : List Load} {fault : EvalError} {F : Environment}

/-- What a document binds before it fails is bound behind it. -/
theorem Fails.boundIn {b : Block} {G : Environment} (h : c.Fails load b fault F G) :
    load.environment.BoundIn F := by
  obtain ⟨n, depth, hn, hx, -⟩ := h
  have halike := ((Lockstep.keeps_boundIn load.environment).levels c hn depth).block
    (Lockstep.invariant_block load.active b)
  obtain ⟨r, s, hr, ⟨-, hs⟩, -⟩ :=
    Lockstep.Alike.invariant_cases (s := ⟨load.environment, load.active⟩) halike (.refl _)
  cases hx.symm.trans hr
  exact hs

namespace LoadsFail

/-- The fault names the modules that were loaded, in that order. -/
theorem imports_eq (h : c.LoadsFail loads fault F) : fault.imports = loads.map (·.module) := by
  induction h with
  | unloadable => exact (EvalError.unloadable_eq _ _).1
  | own _ hfault _ =>
    rw [EvalError.imports, not_not.1 hfault]
    rfl
  | nested _ _ _ _ _ ih => exact congrArg (_ :: ·) ih

/-- With every load one more element is active at least. -/
theorem length_le (h : c.LoadsFail (load :: loads) fault F) (ha : load.active ≤ maxActive) :
    load.active + loads.length ≤ maxActive := by
  generalize hloads : load :: loads = all at h
  induction h generalizing load loads with
  | unloadable | own =>
    cases hloads
    exact ha
  | nested _ hlt hle _ _ ih =>
    cases hloads
    have hrest := ih hle rfl
    rw [List.length_cons]
    omega

/-- The elements that are active at the first load are active at all of them. -/
theorem active_mem (h : c.LoadsFail (load :: loads) fault F) (ha : load.active ≤ maxActive) :
    ∀ other ∈ load :: loads, load.active ≤ other.active ∧ other.active ≤ maxActive := by
  generalize hloads : load :: loads = all at h
  induction h generalizing load loads with
  | unloadable | own =>
    cases hloads
    intro other hm
    cases List.mem_singleton.1 hm
    exact ⟨Nat.le_refl _, ha⟩
  | nested _ hlt hle _ _ ih =>
    cases hloads
    intro other hm
    rcases List.mem_cons.1 hm with rfl | hm
    · exact ⟨Nat.le_refl _, ha⟩
    · obtain ⟨hother, hmax⟩ := ih hle rfl other hm
      exact ⟨by omega, hmax⟩

/-- What was bound when a load began is bound in the end. -/
theorem boundIn (h : c.LoadsFail loads fault F) :
    ∀ load ∈ loads, load.environment.BoundIn F := by
  induction h with
  | unloadable =>
    intro load hm
    cases List.mem_singleton.1 hm
    exact .refl _
  | own _ _ hfails =>
    intro load hm
    cases List.mem_singleton.1 hm
    exact hfails.boundIn
  | nested _ _ _ hfails _ ih =>
    intro load hm
    rcases List.mem_cons.1 hm with rfl | hm
    · exact hfails.boundIn
    · exact ih load hm

end LoadsFail

end Config

/-! ## What is told of a failed import -/

/-- Two outcomes with `a` elements active.  They are the same, unless an import failed or the
    evaluation goes on without end.  Of a failed import the second one leaves the environment in
    which the module was loaded, while `low` elements were active at least. -/
inductive Told (c : Config) {α : Type} (a low : Nat) :
    Except Failure α × EvaluationState → Except Failure α × EvaluationState → Prop
  | same {r : Except Failure α} {F : Environment} :
      (∀ fault, r = .error (.error fault) → ¬ fault.IsImport) →
      Told c a low (r, ⟨F, a⟩) (r, ⟨F, a⟩)
  | imported {load : Load} {rest : List Load} {fault : EvalError} {F : Environment} :
      low ≤ load.active → load.active ≤ maxActive → c.LoadsFail (load :: rest) fault F →
      Told c a low (.error (.error fault), ⟨F, a⟩) (.error (.error fault), ⟨load.environment, a⟩)
  | endless {F G : Environment} :
      Told c a low (.error .endless, ⟨F, a⟩) (.error .endless, ⟨G, a⟩)

/-- The second computation tells of a failed import in the first one. -/
def Tells (c : Config) {α : Type} (a low : Nat) (x y : Evaluation α) : Prop :=
  ∀ E, Told c a low (x.outcome ⟨E, a⟩) (y.outcome ⟨E, a⟩)

namespace Tells

variable {c : Config} {α β : Type} {a low : Nat} {x y : Evaluation α}

/-- A computation that imports nothing. -/
theorem refl (h : ∀ E, ∃ r F, x.outcome ⟨E, a⟩ = (r, ⟨F, a⟩) ∧
    ∀ fault, r = .error (.error fault) → ¬ fault.IsImport) : Tells c a low x x := by
  intro E
  obtain ⟨r, F, hx, hr⟩ := h E
  rw [hx]
  exact .same hr

theorem pure (v : α) : Tells c a low (Pure.pure v) (Pure.pure v) :=
  refl fun E => ⟨.ok v, E, rfl, by rintro _ ⟨⟩⟩

theorem endless : Tells c a low (throw .endless : Evaluation α) (throw .endless) :=
  fun _ => .endless

theorem fail {e : EvalError} (h : ¬ e.IsImport) :
    Tells c a low (Evaluation.fail e : Evaluation α) (Evaluation.fail e) :=
  refl fun E => ⟨.error (.error e), E, rfl, by rintro _ ⟨⟩; exact h⟩

theorem boundVariable (name : String) :
    Tells c a low (Evaluation.boundVariable name) (Evaluation.boundVariable name) :=
  refl fun E => ⟨.ok (E.values.get? name), E, rfl, by rintro _ ⟨⟩⟩

theorem boundTemplate (name : String) :
    Tells c a low (Evaluation.boundTemplate name) (Evaluation.boundTemplate name) :=
  refl fun E => ⟨.ok (E.templates.get? name), E, rfl, by rintro _ ⟨⟩⟩

theorem change (f : Environment → Environment) :
    Tells c a low (Evaluation.change f) (Evaluation.change f) :=
  refl fun E => ⟨.ok (), f E, rfl, by rintro _ ⟨⟩⟩

theorem expect (directive : String) (part : Except KindError α) :
    Tells c a low (Evaluation.expect directive part) (Evaluation.expect directive part) := by
  cases part with
  | ok v => exact pure v
  | error e => exact fail (not_isImport rfl)

theorem bind {f g : α → Evaluation β} (h : Tells c a low x y)
    (hf : ∀ v, Tells c a low (f v) (g v)) : Tells c a low (x >>= f) (y >>= g) := by
  intro E
  have hx := h E
  rw [outcome_bind, outcome_bind]
  generalize x.outcome ⟨E, a⟩ = o, y.outcome ⟨E, a⟩ = o' at hx ⊢
  cases hx with
  | @same r F hr =>
    cases r with
    | ok v => exact hf v F
    | error f => exact .same fun fault hfault => hr fault (congrArg _ (Except.error.inj hfault))
  | imported hlow hmax hloads => exact .imported hlow hmax hloads
  | endless => exact .endless

theorem mapM {ι : Type} {f g : ι → Evaluation β} (h : ∀ i, Tells c a low (f i) (g i))
    (is : List ι) : Tells c a low (is.mapM f) (is.mapM g) := by
  induction is with
  | nil => exact pure []
  | cons i is ih =>
    rw [List.mapM_cons, List.mapM_cons]
    exact (h i).bind fun _ => ih.bind fun _ => pure _

theorem mono {higher : Nat} (h : Tells c a higher x y) (hlow : low ≤ higher) :
    Tells c a low x y := by
  intro E
  have hx := h E
  generalize x.outcome ⟨E, a⟩ = o, y.outcome ⟨E, a⟩ = o' at hx ⊢
  cases hx with
  | same hr => exact .same hr
  | imported hhigher hmax hloads => exact .imported (Nat.le_trans hlow hhigher) hmax hloads
  | endless => exact .endless

/-- An element is active when its module is loaded, and those in its parts are then active too. -/
theorem whileActive {label : String} (h : a < maxActive → Tells c (a + 1) low x y) :
    Tells c a low (Evaluation.whileActive label x) (Evaluation.whileActive label y) := by
  intro E
  rw [outcome_whileActive, outcome_whileActive]
  by_cases ha : maxActive ≤ a
  · rw [if_pos ha, if_pos ha]
    exact .same (by rintro _ ⟨⟩; exact not_isImport rfl)
  · rw [if_neg ha, if_neg ha]
    have hx := h (Nat.lt_of_not_le ha) E
    generalize x.outcome ⟨E, a + 1⟩ = o, y.outcome ⟨E, a + 1⟩ = o' at hx ⊢
    cases hx with
    | same hr => exact .same hr
    | imported hlow hmax hloads => exact .imported hlow hmax hloads
    | endless => exact .endless

end Tells

/-- Two levels of which the second one tells of failed imports in the first one. -/
structure LevelTells (c : Config) (a : Nat) (l m : Level) : Prop where
  block (b : Block) : Tells c a (a + 1) (l.block b) (m.block b)
  print (v : Value) : Tells c a (a + 1) (l.print v) (m.print v)

namespace LevelTells

variable {c : Config} {a : Nat} {l m : Level} (h : LevelTells c a l m)
include h

theorem printResult (v : Option Value) :
    Tells c a (a + 1) (l.printResult v) (m.printResult v) := by
  cases v with
  | none => exact .pure ""
  | some v => exact h.print v

theorem blockText (b : Block) :
    Tells c a (a + 1) (l.blockText b) (m.blockText b) :=
  (h.block b).bind h.printResult

theorem force (v : Value) :
    Tells c a (a + 1) (l.force v) (m.force v) := by
  cases v with
  | deferred b => exact h.block b
  | text | number | boolean | list => exact .pure _

theorem resolve (strict : Bool) (b : Block) :
    Tells c a (a + 1) (l.resolve strict b) (m.resolve strict b) := by
  unfold Level.resolve
  split
  · exact h.block b
  · simp only
    split
    · exact .pure _
    · refine (Tells.boundVariable _).bind fun v => ?_
      cases v with
      | some v => exact h.force v
      | none =>
        cases strict with
        | true => exact .fail (not_isImport rfl)
        | false => exact h.block b

theorem listItems (directive : String) (b : Block) :
    Tells c a (a + 1) (l.listItems directive b) (m.listItems directive b) := by
  unfold Level.listItems
  refine (Tells.boundVariable _).bind fun v => ?_
  cases v with
  | none => exact .fail (not_isImport rfl)
  | some v =>
    refine (h.force v).bind fun w => ?_
    cases w with
    | none => exact .fail (not_isImport rfl)
    | some w => exact .expect _ _

theorem condition (directive : String) (b : Block) :
    Tells c a (a + 1) (l.condition directive b) (m.condition directive b) := by
  unfold Level.condition
  refine (h.resolve true b).bind fun v => ?_
  cases v with
  | none => exact .fail (not_isImport rfl)
  | some v => exact .expect _ _

theorem branch (directive : String) (negated : Bool)
    (condition body : Block) (otherwise : List Block) :
    Tells c a (a + 1) (l.branch directive negated condition body otherwise)
      (m.branch directive negated condition body otherwise) := by
  unfold Level.branch
  refine (h.condition directive condition).bind fun holds => ?_
  split
  · exact h.resolve false body
  · split
    · exact h.resolve false _
    · exact .pure none

theorem extendTemplate (name : String) (overrides : List Block) :
    Tells c a (a + 1) (l.extendTemplate name overrides) (m.extendTemplate name overrides) := by
  unfold Level.extendTemplate
  refine (Tells.boundTemplate _).bind fun base => ?_
  cases base with
  | none => exact .fail (not_isImport rfl)
  | some base =>
    simp only
    split
    · exact ((h.block _).bind fun _ => .pure ()).bind fun _ => h.block base
    · exact h.block base

theorem reference (name : String) :
    Tells c a (a + 1) (l.reference name) (m.reference name) := by
  unfold Level.reference
  refine (Tells.boundVariable _).bind fun v => ?_
  cases v with
  | some v => exact h.force v
  | none =>
    refine (Tells.boundTemplate _).bind fun b => ?_
    cases b with
    | some b => exact h.block b
    | none => exact .fail (not_isImport rfl)

theorem repeatFor (item : String) (body : Block) (values : List Value) :
    Tells c a (a + 1) (l.repeatFor item body values) (m.repeatFor item body values) := by
  induction values with
  | nil => exact .pure ""
  | cons v rest ih =>
    simp only [Level.repeatFor]
    refine (Tells.change _).bind fun _ => ?_
    exact (h.blockText body).bind fun _ => ih.bind fun _ => .pure _

end LevelTells

/-! ### Imports -/

section
variable {c : Config} {a n depth : Nat}

/-- There is no document of a module. -/
theorem told_unloadable {name : String} {e : Unavailable} (hmax : a ≤ maxActive)
    (h : c.Gives name (.error e)) (E : Environment) :
    let o : Except Failure Unit × EvaluationState :=
      (.error (.error (.unloadable name e)), ⟨E, a⟩)
    Told c a a o o := by
  have hload : c.LoadsFail [⟨name, a, E⟩] (.unloadable name e) E := .unloadable h
  exact .imported (Nat.le_refl a) hmax hload

variable (hl : LevelTells c a (level c (directive c) n depth) (level c (rewinding c) n depth))
  (hn : maxActive ≤ a + n) (hmax : a ≤ maxActive)
include hl hn hmax

/-- The document of a module, evaluated while its import is active. -/
theorem tells_document {name source : String} {r : Except SourceError Block}
    (hr : Block.ofSource source = r) (hgives : c.Gives name (r.mapError .malformed)) :
    Tells c a a ((level c (directive c) n depth).document name source)
      ((level c (rewinding c) n depth).document name source).rewound := by
  intro E
  rw [outcome_rewound]
  cases r with
  | error e =>
    simp only [Level.document, hr]
    exact told_unloadable hmax hgives E
  | ok b =>
    rw [outcome_document _ _ hr, outcome_document _ _ hr]
    have hb := hl.block b E
    generalize hx : ((level c (directive c) n depth).block b).outcome ⟨E, a⟩ = o at hb
    generalize hy : ((level c (rewinding c) n depth).block b).outcome ⟨E, a⟩ = o' at hb
    cases hb with
    | @same r F hr =>
      rcases r with (fault | _) | v
      · have hfails : c.Fails ⟨name, a, E⟩ b fault F F := ⟨n, depth, hn, hx, hy⟩
        exact .imported (Nat.le_refl a) hmax (.own hgives (hr fault rfl) hfails)
      · exact .endless
      · exact .same (by rintro _ ⟨⟩)
    | @imported next rest fault F hlow hnext hloads =>
      have hlt : (⟨name, a, E⟩ : Load).active < next.active := hlow
      have hfails : c.Fails ⟨name, a, E⟩ b fault F next.environment := ⟨n, depth, hn, hx, hy⟩
      exact .imported (Nat.le_refl a) hmax (.nested hgives hlt hnext hfails hloads)
    | endless => exact .endless

/-- **An import that fails** is told by the load of its module. -/
theorem tells_importModule (name : String) :
    Tells c a a ((level c (directive c) n depth).importModule c name)
      ((level c (rewinding c) n depth).importModule c name).rewound := by
  unfold Level.importModule
  cases hloader : c.loader with
  | none =>
    rw [rewound_fail]
    exact .fail (not_isImport rfl)
  | some loader =>
    cases hload : loader.load name with
    | error e =>
      simp only [hload, rewound_fail]
      exact told_unloadable hmax (.error hloader hload)
    | ok module =>
      cases module with
      | bindings values =>
        simp only [hload, rewound_change]
        exact .change _
      | document source =>
        simp only [hload]
        exact tells_document hl hn hmax rfl (.document hloader hload)

/-! ### Elements -/

/-- **What an element does**, given levels of its parts that tell of failed imports. -/
theorem tells_directive (name : String) (arguments : List Block) :
    Tells c a a (directive c (level c (directive c) n depth) name arguments)
      (rewinding c (level c (rewinding c) n depth) name arguments) := by
  have himport := tells_importModule hl hn hmax
  generalize level c (directive c) n depth = l, level c (rewinding c) n depth = m at hl himport ⊢
  -- where its parts load a module, one element more is active
  have hlow : a ≤ a + 1 := Nat.le_succ a
  unfold rewinding
  by_cases hd : Directive.ofName? name = some .importModule
  · rw [if_pos hd]
    rcases arguments with _ | ⟨module, _ | ⟨second, rest⟩⟩ <;> simp only [directive, hd]
    · exact .fail (not_isImport rfl)
    · rw [rewound_bind_pure]
      exact (himport _).bind fun _ => .pure none
    · exact .fail (not_isImport rfl)
  · rw [if_neg hd]
    unfold directive
    split
    · exact .fail (not_isImport rfl)
    · next h => exact absurd h hd
    · exact (Tells.change _).bind fun _ => .pure none
    · exact ((hl.resolve false _).mono hlow).bind fun _ => (Tells.change _).bind fun _ => .pure none
    · split
      · exact .fail (not_isImport rfl)
      · exact (hl.extendTemplate _ _).mono hlow
    · split
      · exact .fail (not_isImport rfl)
      · exact (hl.branch _ _ _ _ _).mono hlow
    · refine ((hl.listItems _ _).mono hlow).bind fun values => ?_
      exact ((hl.repeatFor _ _ values).mono hlow).bind fun _ => .pure _
    · refine ((hl.listItems _ _).mono hlow).bind fun values => ?_
      exact ((Tells.mapM hl.print values).mono hlow).bind fun _ => .pure _
    · split
      · exact .pure _
      · exact .fail (not_isImport rfl)
    · exact (hl.block _).mono hlow
    · exact (hl.reference _).mono hlow
    · exact .fail (not_isImport rfl)

end

/-! ### Blocks -/

section
variable {c : Config} {a : Nat}

mutual

theorem tells_printValue {p q : Block → Evaluation String}
    (hp : ∀ b, Tells c a (a + 1) (p b) (q b)) :
    ∀ v : Value, Tells c a (a + 1) (printValue p v) (printValue q v)
  | .deferred b => hp b
  | .list items => by
    simp only [printValue]
    exact (tells_printItems hp items).bind fun _ => .pure _
  | .text _ | .number _ | .boolean _ => by simp only [printValue]; exact .pure _

theorem tells_printItems {p q : Block → Evaluation String}
    (hp : ∀ b, Tells c a (a + 1) (p b) (q b)) :
    ∀ items : List Value, Tells c a (a + 1) (printItems p items) (printItems q items)
  | [] => .pure []
  | item :: rest => by
    simp only [printItems]
    exact (tells_printValue hp item).bind fun _ => (tells_printItems hp rest).bind fun _ => .pure _

end

theorem tells_evaluateNodes {x y : ElementEvaluator} {p q : Value → Evaluation String}
    (hx : ∀ name arguments, Tells c a (a + 1) (x name arguments) (y name arguments))
    (hp : ∀ v, Tells c a (a + 1) (p v) (q v)) (b : Block) :
    Tells c a (a + 1) (evaluateNodes c x p b) (evaluateNodes c y q b) := by
  have hparts : ∀ b : Block,
      Tells c a (a + 1) (evaluateParts c x b) (evaluateParts c y b) := by
    intro b
    induction b with
    | nil => exact .pure []
    | cons node rest ih =>
      cases node with
      | text s => exact ih.bind fun _ => .pure _
      | element name arguments => exact (hx name arguments).bind fun _ => ih.bind fun _ => .pure _
  have hprint : ∀ ps, Tells c a (a + 1) (printParts p ps) (printParts q ps) := by
    intro ps
    induction ps with
    | nil => exact .pure ""
    | cons part rest ih =>
      rcases part with s | (_ | v)
      · exact ih.bind fun _ => .pure _
      · exact ih
      · exact (hp v).bind fun _ => ih.bind fun _ => .pure _
  refine (hparts b).bind fun ps => ?_
  split
  · exact .pure _
  · exact (hprint ps).bind fun _ => .pure _

theorem levelTells_ofElement {x y : Nat → ElementEvaluator}
    (hx : ∀ k name arguments, Tells c a (a + 1) (x k name arguments) (y k name arguments))
    (k : Nat) : LevelTells c a (Level.ofElement c x k) (Level.ofElement c y k) := by
  have hlevel : ∀ {k : Nat} {p q : Block → Evaluation String},
      (∀ b, Tells c a (a + 1) (p b) (q b)) →
      LevelTells c a ⟨evaluateNodes c (x k) (printValue p), printValue p⟩
        ⟨evaluateNodes c (y k) (printValue q), printValue q⟩ := fun {k} _ _ hp => {
    print := tells_printValue hp
    block := tells_evaluateNodes (hx k) (tells_printValue hp) }
  induction k with
  | zero => exact hlevel fun _ => .endless
  | succ k ih => exact hlevel ih.blockText

/-- **The levels tell of failed imports**, as long as they suffice for the elements that may yet
    become active. -/
theorem tells_level {n : Nat} (hn : maxActive ≤ a + n) (depth : Nat) :
    LevelTells c a (level c (directive c) n depth) (level c (rewinding c) n depth) := by
  induction n generalizing a depth with
  | zero =>
    refine levelTells_ofElement (fun k name arguments => ?_) depth
    exact .whileActive fun ha => absurd hn (Nat.not_le.2 ha)
  | succ n ih =>
    have hn' : maxActive ≤ a + 1 + n := by omega
    refine levelTells_ofElement (fun k name arguments => ?_) depth
    exact .whileActive fun ha => tells_directive (ih hn' k) hn' ha name arguments

end

end BraceMarkup
