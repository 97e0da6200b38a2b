/-
  Two evaluations in lockstep.

  Much of what can be said of an evaluation compares it with another one: of
  the same block in another environment, with other elements active, with
  another loader, or with itself.  The two evaluate the same elements one
  after the other, read the same from their environments and bind the same,
  so that they yield the same value or fail with the same failure, and leave
  environments that compare as those before did.

  * `Lockstep`: what is compared, and what is known of the names, elements and
    values on the way;
  * `Lockstep.Outcomes`, `Lockstep.Alike`: two outcomes that compare, and two
    computations whose outcomes compare;
  * `Lockstep.Laws`: what has to be shown of a comparison;
  * `Lockstep.Levels`: two levels that evaluate blocks alike;
  * `Lockstep.Laws.directive`: what an element does is alike;
  * `Lockstep.Laws.level`: **the levels are alike**, whatever their numbers, as
    long as these suffice for the elements that may yet become active.
-/
import BraceMarkup.Proofs.Template.Outcome

namespace BraceMarkup

open Evaluation

/-! ## What is compared -/

/-- A comparison of two evaluations, of which the first may fail in a way that is excused: nothing
    is then said of the second. -/
structure Lockstep where
  /-- The environments that compare. -/
  environments : Environment → Environment → Prop
  /-- The names that are looked up. -/
  name : String → Prop
  /-- The elements that are evaluated while so many others are active in the first evaluation. -/
  element : (active : Nat) → String → List Block → Prop
  /-- The values that variables stand for. -/
  value : Value → Prop
  /-- The values that stand in lists. -/
  item : Value → Prop
  /-- The failures that both evaluations may end in. -/
  failure : Failure → Prop
  /-- The failures of the first evaluation behind which nothing is compared. -/
  excused : Failure → Prop

namespace Lockstep

variable (L : Lockstep)

/-- A block whose elements are evaluated while `a` others are active. -/
def block (a : Nat) (b : Block) : Prop :=
  ∀ name arguments, (name, arguments) ∈ b.elements → L.element a name arguments

/-- What may be yielded: a value that is no deferred block, or none. -/
def result (v : Option Value) : Prop := ∀ value ∈ v, L.value value ∧ value.kind ≠ .deferred

/-- The values that are printed: those that are yielded, and those in lists. -/
def shown (v : Value) : Prop := L.item v ∨ L.value v ∧ v.kind ≠ .deferred

/-- What a name of a variable may stand for; it is an error if it stands for nothing. -/
def variableValue (name : String) : Option Value → Prop
  | none => L.failure (.error (.unbound name))
  | some value => L.value value

/-- What a name of a template may stand for; it is an error if it stands for nothing. -/
def templateBlock (name : String) : Option Block → Prop
  | none => L.failure (.error (.unboundTemplate name))
  | some b => ∀ a, L.block a b

/-- Two outcomes that compare, with `a` and `b` elements active. -/
inductive Outcomes {α : Type} (a b : Nat) (P : α → Prop) :
    Except Failure α × EvaluationState → Except Failure α × EvaluationState → Prop
  | ok {v : α} {E F : Environment} : P v → L.environments E F →
      Outcomes a b P (.ok v, ⟨E, a⟩) (.ok v, ⟨F, b⟩)
  | error {f : Failure} {E F : Environment} : L.failure f → L.environments E F →
      Outcomes a b P (.error f, ⟨E, a⟩) (.error f, ⟨F, b⟩)
  | excused {f : Failure} {s : EvaluationState}
      {o : Except Failure α × EvaluationState} : L.excused f → Outcomes a b P (.error f, s) o

/-- Two computations whose outcomes compare in all environments that do.  What they yield has the
    property `P`. -/
def Alike {α : Type} (a b : Nat) (P : α → Prop) (x y : Evaluation α) : Prop :=
  ∀ E F, L.environments E F → L.Outcomes a b P (x.outcome ⟨E, a⟩) (y.outcome ⟨F, b⟩)

variable {L} {α β : Type} {a b : Nat} {P : α → Prop} {Q : β → Prop}

namespace Alike

theorem pure {v : α} (h : P v) : L.Alike a b P (Pure.pure v) (Pure.pure v) :=
  fun _ _ he => .ok h he

theorem throw {f : Failure} (h : L.failure f) :
    L.Alike a b P (MonadExcept.throw f) (MonadExcept.throw f) :=
  fun _ _ he => .error h he

theorem fail {e : EvalError} (h : L.failure (.error e)) :
    L.Alike a b P (Evaluation.fail e) (Evaluation.fail e) := throw h

/-- A failure that is excused. -/
theorem excuse {f : Failure} (h : L.excused f) (y : Evaluation α) :
    L.Alike a b P (MonadExcept.throw f) y := fun _ _ _ => .excused h

theorem bind {x y : Evaluation α} {f g : α → Evaluation β} (h : L.Alike a b P x y)
    (hf : ∀ v, P v → L.Alike a b Q (f v) (g v)) : L.Alike a b Q (x >>= f) (y >>= g) := by
  intro E F he
  have hx := h E F he
  rw [outcome_bind, outcome_bind]
  generalize x.outcome ⟨E, a⟩ = o, y.outcome ⟨F, b⟩ = o' at hx ⊢
  cases hx with
  | ok hv he => exact hf _ hv _ _ he
  | error hf he => exact .error hf he
  | excused hf => exact .excused hf

theorem mono {R : α → Prop} {x y : Evaluation α} (h : L.Alike a b P x y) (hR : ∀ v, P v → R v) :
    L.Alike a b R x y := by
  intro E F he
  have hx := h E F he
  generalize x.outcome ⟨E, a⟩ = o, y.outcome ⟨F, b⟩ = o' at hx ⊢
  cases hx with
  | ok hv he => exact .ok (hR _ hv) he
  | error hf he => exact .error hf he
  | excused hf => exact .excused hf

/-- A computation whose value plays no part. -/
theorem discard {x y : Evaluation α} (h : L.Alike a b P x y) :
    L.Alike a b (fun _ => True) (Functor.discard x) (Functor.discard y) :=
  h.bind fun _ _ => pure trivial

/-- Failures that are handled alike. -/
theorem tryCatch {x y : Evaluation α} {f g : Failure → Evaluation α} (h : L.Alike a b P x y)
    (hf : ∀ failure, L.failure failure → L.Alike a b P (f failure) (g failure))
    (he : ∀ failure s, L.excused failure → ∃ other s', (f failure).outcome s = (.error other, s') ∧
      L.excused other) :
    L.Alike a b P (MonadExcept.tryCatch x f) (MonadExcept.tryCatch y g) := by
  intro E F hE
  have hx := h E F hE
  rw [outcome_tryCatch, outcome_tryCatch]
  generalize x.outcome ⟨E, a⟩ = o, y.outcome ⟨F, b⟩ = o' at hx ⊢
  cases hx with
  | ok hv hE => exact .ok hv hE
  | error hfail hE => exact hf _ hfail _ _ hE
  | @excused f s _ hexc =>
    obtain ⟨other, s', ho, hother⟩ := he f s hexc
    simp only [ho]
    exact .excused hother

theorem change {f g : Environment → Environment}
    (h : ∀ E F, L.environments E F → L.environments (f E) (g F)) :
    L.Alike a b (fun _ => True) (Evaluation.change f) (Evaluation.change g) :=
  fun E F he => .ok trivial (h E F he)

theorem mapM {ι : Type} {f g : ι → Evaluation β} {xs : List ι}
    (h : ∀ x ∈ xs, L.Alike a b Q (f x) (g x)) :
    L.Alike a b (fun ys => ∀ y ∈ ys, Q y) (xs.mapM f) (xs.mapM g) := by
  induction xs with
  | nil => exact pure (by simp)
  | cons x xs ih =>
    rw [List.mapM_cons, List.mapM_cons]
    refine (h x (by simp)).bind fun y hy => ?_
    refine (ih fun z hz => h z (by simp [hz])).bind fun ys hys => pure ?_
    simpa using ⟨hy, hys⟩

/-- Two computations during which one more element is active.  If too many are active for the
    first, it fails, and so does the second unless that is excused. -/
theorem whileActive {label : String} {x y : Evaluation α}
    (hx : a < maxActive → b < maxActive ∧ L.Alike (a + 1) (b + 1) P x y)
    (hlimit : maxActive ≤ a → L.excused (.error (.recursionLimit label)) ∨
      maxActive ≤ b ∧ L.failure (.error (.recursionLimit label))) :
    L.Alike a b P (Evaluation.whileActive label x) (Evaluation.whileActive label y) := by
  intro E F he
  rw [outcome_whileActive, outcome_whileActive]
  by_cases ha : maxActive ≤ a
  · rw [if_pos ha]
    rcases hlimit ha with hexc | ⟨hb, hfail⟩
    · exact .excused hexc
    · rw [if_pos hb]
      exact .error hfail he
  · obtain ⟨hb, hx⟩ := hx (Nat.lt_of_not_le ha)
    rw [if_neg ha, if_neg (Nat.not_le.2 hb)]
    have hx := hx E F he
    generalize x.outcome ⟨E, a + 1⟩ = o, y.outcome ⟨F, b + 1⟩ = o' at hx ⊢
    cases hx with
    | ok hv he => exact .ok hv he
    | error hf he => exact .error hf he
    | excused hf => exact .excused hf

end Alike

/-! ## What has to be shown -/

variable (L)

/-- What loading the module `name` gives, while `a` elements are active. -/
inductive Loaded (a : Nat) (name : String) :
    Except Unavailable Module → Except Unavailable Module → Prop
  | document {source : String} :
      (∀ b, Block.ofSource source = .ok b → L.block a b) →
      (∀ e, Block.ofSource source = .error e →
        L.failure (.error (.unloadable name (.malformed e)))) →
      Loaded a name (.ok (.document source)) (.ok (.document source))
  | bindings {values : List (String × Value)} :
      (∀ E F, L.environments E F →
        L.environments (E.setVariables values) (F.setVariables values)) →
      Loaded a name (.ok (.bindings values)) (.ok (.bindings values))
  | error {e : Unavailable} : L.failure (.error (.unloadable name e)) →
      Loaded a name (.error e) (.error e)
  | excused {e : Unavailable} {r : Except Unavailable Module} :
      L.excused (.error (.unloadable name e)) → Loaded a name (.error e) r

/-- What the loaders of two sessions give, while `a` elements are active. -/
inductive Loaders (a : Nat) (name : String) : Option Loader → Option Loader → Prop
  | none : Loaders a name none none
  | some {k l : Loader} : L.Loaded a name (k.load name) (l.load name) →
      Loaders a name (some k) (some l)

end Lockstep

/-- A fault that does not depend on what is bound. -/
inductive EvalError.IsPlain : EvalError → Prop
  | unknownDirective {name : String} : IsPlain (.unknownDirective name)
  | wrongArity {name : String} {expected : Arity} {found : Nat} :
      IsPlain (.wrongArity name expected found)
  | typeMismatch {directive : String} {cause : KindError} : cause.found ≠ some .deferred →
      IsPlain (.typeMismatch directive cause)
  | unknownChar {name : String} : IsPlain (.unknownChar name)
  | noLoader : IsPlain .noLoader

/-- What has to be shown of a comparison of two evaluations, under two settings, of which the first
    has `gap` more elements active than the second. -/
structure Lockstep.Laws (L : Lockstep) (gap : Nat) (c d : Config) : Prop where
  trimSpaces : c.trimSpaces = d.trimSpaces
  /-- Names stand for the same in environments that compare. -/
  lookupVariable {E F : Environment} {name : String} : L.environments E F → L.name name →
    E.values.get? name = F.values.get? name ∧ L.variableValue name (E.values.get? name)
  lookupTemplate {E F : Environment} {name : String} : L.environments E F → L.name name →
    E.templates.get? name = F.templates.get? name ∧
      L.templateBlock name (E.templates.get? name)
  /-- What is known of an element is known of its arguments. -/
  arguments {a : Nat} {name : String} {arguments : List Block} {b : Block} :
    L.element a name arguments → b ∈ arguments → L.name (bindingName b) ∧ L.block (a + 1) b
  inlined {a : Nat} {name : String} {b : Block} : L.element a name [b] →
    Directive.ofName? name = some .inline → L.block (a + 1) (b.mapText Text.removeBreaks)
  /-- The environments compare after each directive that binds. -/
  define {a : Nat} {name : String} {binder body : Block} {value : Value} {E F : Environment} :
    L.element a name [binder, body] → Directive.ofName? name = some .define →
    L.value value → value.kind ≠ .deferred → L.environments E F →
    L.environments (E.setVariable (bindingName binder) value)
      (F.setVariable (bindingName binder) value)
  foreach {a : Nat} {name : String} {item items body : Block} {value : Value}
    {E F : Environment} : L.element a name [item, items, body] →
    Directive.ofName? name = some .foreach → L.item value → L.environments E F →
    L.environments (E.setVariable (bindingName item) value)
      (F.setVariable (bindingName item) value)
  template {a : Nat} {name : String} {binder body : Block} {E F : Environment} :
    L.element a name [binder, body] → Directive.ofName? name = some .template →
    L.environments E F →
    L.environments (E.setTemplate (bindingName binder) body)
      (F.setTemplate (bindingName binder) body)
  importModule {a : Nat} {name : String} {binder : Block} : L.element a name [binder] →
    Directive.ofName? name = some .importModule →
    L.Loaders (a + 1) (bindingName binder) c.loader d.loader
  /-- Values that are no lists and no deferred blocks. -/
  text (s : String) : L.value (.text s)
  number (x : Float) : L.value (.number x)
  boolean (x : Bool) : L.value (.boolean x)
  items {items : List Value} {item : Value} : L.value (.list items) → item ∈ items → L.item item
  value_of_item {item : Value} : L.item item → L.value item
  deferred {b : Block} {a : Nat} : L.value (.deferred b) → L.block a b
  /-- Where deferred blocks stand in lists, printing them may go on without end. -/
  endless {b : Block} : L.item (.deferred b) → L.excused .endless ∨ L.failure .endless
  plain {e : EvalError} : e.IsPlain → L.failure (.error e)
  imported {name : String} {e : EvalError} : L.failure (.error e) →
    L.failure (.error (.imported name e))
  excused_imported {name : String} {e : EvalError} : L.excused (.error e) →
    L.excused (.error (.imported name e))
  /-- Too many elements are active for the first evaluation. -/
  limit {a : Nat} {name : String} {arguments : List Block} : L.element a name arguments →
    maxActive ≤ a → L.excused (.error (.recursionLimit (elementLabel name arguments))) ∨
      gap = 0 ∧ L.failure (.error (.recursionLimit (elementLabel name arguments)))

/-! ## What is evaluated alike -/

namespace Lockstep

section
variable {L : Lockstep} {gap : Nat} {c d : Config} {a b : Nat}

theorem result_none : L.result none := by rintro v ⟨⟩

theorem result_some {v : Value} (h : L.value v) (hk : v.kind ≠ .deferred) :
    L.result (some v) := by
  rintro w ⟨⟩
  exact ⟨h, hk⟩

namespace Laws

theorem result_text (h : L.Laws gap c d) (s : String) : L.result (some (.text s)) :=
  result_some (h.text s) (by simp [Value.kind])

theorem alike_boundVariable (h : L.Laws gap c d) {name : String} (hn : L.name name) :
    L.Alike a b (L.variableValue name) (boundVariable name) (boundVariable name) := by
  intro E F he
  obtain ⟨heq, hv⟩ := h.lookupVariable he hn
  rw [outcome_boundVariable, outcome_boundVariable, ← heq]
  exact .ok hv he

theorem alike_boundTemplate (h : L.Laws gap c d) {name : String} (hn : L.name name) :
    L.Alike a b (L.templateBlock name) (boundTemplate name) (boundTemplate name) := by
  intro E F he
  obtain ⟨heq, hb⟩ := h.lookupTemplate he hn
  rw [outcome_boundTemplate, outcome_boundTemplate, ← heq]
  exact .ok hb he

theorem alike_expect (h : L.Laws gap c d) {α : Type} {P : α → Prop} {directive : String}
    {part : Except KindError α} (hok : ∀ v, part = .ok v → P v)
    (herror : ∀ e, part = .error e → e.found ≠ some .deferred) :
    L.Alike a b P (expect directive part) (expect directive part) := by
  cases part with
  | ok v => exact .pure (hok v rfl)
  | error e => exact .fail (h.plain (.typeMismatch (herror e rfl)))

/-- The number or boolean that a text spells out is no deferred block. -/
theorem result_literal (h : L.Laws gap c d) {s : String} {v : Value}
    (hv : Value.literal? s = some v) : L.result (some v) := by
  unfold Value.literal? at hv
  split at hv
  · cases hv
    exact result_some (h.number _) (by simp [Value.kind])
  · split at hv
    · cases hv
      exact result_some (h.boolean _) (by simp [Value.kind])
    · split at hv
      · cases hv
        exact result_some (h.boolean _) (by simp [Value.kind])
      · cases hv

theorem result_getD (h : L.Laws gap c d) {v : Option Value} (hv : L.result v) :
    L.value (v.getD (.text "")) ∧ (v.getD (.text "")).kind ≠ .deferred := by
  cases v with
  | none => exact h.result_text "" _ rfl
  | some v => exact hv v rfl

/-! ### Printing -/

mutual

theorem alike_printValue (h : L.Laws gap c d) {p q : Block → Evaluation String}
    (hp : ∀ b', L.item (.deferred b') → L.Alike a b (fun _ => True) (p b') (q b')) :
    ∀ {v : Value}, L.shown v → L.Alike a b (fun _ => True) (printValue p v) (printValue q v)
  | .deferred b', hv => by
    rcases hv with hv | ⟨-, hk⟩
    · exact hp b' hv
    · exact absurd rfl hk
  | .list items, hv => by
    have hv : L.value (.list items) := by
      rcases hv with hv | ⟨hv, -⟩
      · exact h.value_of_item hv
      · exact hv
    simp only [printValue]
    exact (h.alike_printItems hp fun item hi => h.items hv hi).bind fun _ _ => .pure trivial
  | .text _, _ => by simp only [printValue]; exact .pure trivial
  | .number _, _ => by simp only [printValue]; exact .pure trivial
  | .boolean _, _ => by simp only [printValue]; exact .pure trivial

theorem alike_printItems (h : L.Laws gap c d) {p q : Block → Evaluation String}
    (hp : ∀ b', L.item (.deferred b') → L.Alike a b (fun _ => True) (p b') (q b')) :
    ∀ {items : List Value}, (∀ item ∈ items, L.item item) →
      L.Alike a b (fun _ => True) (printItems p items) (printItems q items)
  | [], _ => .pure trivial
  | item :: rest, hi => by
    simp only [printItems]
    refine (h.alike_printValue hp (.inl (hi item (by simp)))).bind fun _ _ => ?_
    exact (h.alike_printItems hp fun i hm => hi i (by simp [hm])).bind fun _ _ => .pure trivial

end

end Laws

/-- Two levels that evaluate blocks alike, while `a` and `b` elements are active, and print values
    alike. -/
structure Levels (L : Lockstep) (a b : Nat) (l m : Level) : Prop where
  block {blk : Block} : L.block a blk → L.Alike a b L.result (l.block blk) (m.block blk)
  print {v : Value} : L.shown v → L.Alike a b (fun _ => True) (l.print v) (m.print v)

namespace Levels

variable {l m : Level}

theorem printResult (hl : L.Levels a b l m) {v : Option Value} (hv : L.result v) :
    L.Alike a b (fun _ => True) (l.printResult v) (m.printResult v) := by
  cases v with
  | none => exact .pure trivial
  | some v => exact hl.print (.inr (hv v rfl))

theorem blockText (hl : L.Levels a b l m) {blk : Block} (hb : L.block a blk) :
    L.Alike a b (fun _ => True) (l.blockText blk) (m.blockText blk) :=
  (hl.block hb).bind fun _ hv => hl.printResult hv

theorem force (hl : L.Levels a b l m) (h : L.Laws gap c d) {v : Value} (hv : L.value v) :
    L.Alike a b L.result (l.force v) (m.force v) := by
  cases v with
  | deferred blk => exact hl.block (h.deferred hv)
  | text | number | boolean | list => exact .pure (result_some hv (by simp [Value.kind]))

theorem bindingName_of_singleText? {blk : Block} {s : String} (hs : blk.singleText? = some s) :
    bindingName blk = Text.trim s := by
  unfold Block.singleText? at hs
  split at hs
  · cases hs
    simp [bindingName, Block.textContent]
  · cases hs

theorem resolve (hl : L.Levels a b l m) (h : L.Laws gap c d) {strict : Bool} {blk : Block}
    (hn : L.name (bindingName blk)) (hb : L.block a blk) :
    L.Alike a b L.result (l.resolve strict blk) (m.resolve strict blk) := by
  unfold Level.resolve
  split
  · exact hl.block hb
  · next s hs =>
    rw [bindingName_of_singleText? hs] at hn
    simp only
    split
    · next v hv => exact .pure (h.result_literal hv)
    · refine (h.alike_boundVariable hn).bind fun v hv => ?_
      cases v with
      | some v => exact hl.force h hv
      | none =>
        simp only
        split
        · exact .fail hv
        · exact hl.block hb

theorem listItems (hl : L.Levels a b l m) (h : L.Laws gap c d) {directive : String} {blk : Block}
    (hn : L.name (bindingName blk)) :
    L.Alike a b (fun items => ∀ item ∈ items, L.item item) (l.listItems directive blk)
      (m.listItems directive blk) := by
  unfold Level.listItems
  refine (h.alike_boundVariable hn).bind fun v hv => ?_
  cases v with
  | none => exact .fail hv
  | some v =>
    refine (hl.force h hv).bind fun w hw => ?_
    cases w with
    | none => exact .fail (h.plain (.typeMismatch (by simp)))
    | some w =>
      obtain ⟨hw, hk⟩ := hw w rfl
      refine h.alike_expect (fun items hi => ?_) fun e he => ?_
      · cases w <;> simp only [Value.toList] at hi <;> cases hi
        exact fun item hm => h.items hw hm
      · cases w <;> simp only [Value.toList] at he <;> cases he <;> simpa using hk

theorem condition (hl : L.Levels a b l m) (h : L.Laws gap c d) {directive : String} {blk : Block}
    (hn : L.name (bindingName blk)) (hb : L.block a blk) :
    L.Alike a b (fun _ => True) (l.condition directive blk) (m.condition directive blk) := by
  unfold Level.condition
  refine (hl.resolve h hn hb).bind fun v hv => ?_
  cases v with
  | none => exact .fail (h.plain (.typeMismatch (by simp)))
  | some v =>
    obtain ⟨-, hk⟩ := hv v rfl
    refine h.alike_expect (fun _ _ => trivial) fun e he => ?_
    cases v <;> simp only [Value.toBool] at he <;> cases he <;> simpa using hk

theorem branch (hl : L.Levels a b l m) (h : L.Laws gap c d) {directive : String} {negated : Bool}
    {condition body : Block} {otherwise : List Block}
    (hcondition : L.name (bindingName condition) ∧ L.block a condition)
    (hbody : L.name (bindingName body) ∧ L.block a body)
    (hotherwise : ∀ blk ∈ otherwise, L.name (bindingName blk) ∧ L.block a blk) :
    L.Alike a b L.result (l.branch directive negated condition body otherwise)
      (m.branch directive negated condition body otherwise) := by
  unfold Level.branch
  refine (hl.condition h hcondition.1 hcondition.2).bind fun holds _ => ?_
  split
  · exact hl.resolve h hbody.1 hbody.2
  · split
    · exact hl.resolve h (hotherwise _ (by simp)).1 (hotherwise _ (by simp)).2
    · exact .pure result_none

theorem extendTemplate (hl : L.Levels a b l m) (h : L.Laws gap c d) {name : String}
    {overrides : List Block} (hn : L.name name) (hoverrides : ∀ blk ∈ overrides, L.block a blk) :
    L.Alike a b L.result (l.extendTemplate name overrides) (m.extendTemplate name overrides) := by
  unfold Level.extendTemplate
  refine (h.alike_boundTemplate hn).bind fun base hbase => ?_
  cases base with
  | none => exact .fail hbase
  | some base =>
    simp only
    split
    · exact (hl.block (hoverrides _ (by simp))).discard.bind fun _ _ => hl.block (hbase a)
    · exact hl.block (hbase a)

theorem reference (hl : L.Levels a b l m) (h : L.Laws gap c d) {name : String} (hn : L.name name) :
    L.Alike a b L.result (l.reference name) (m.reference name) := by
  unfold Level.reference
  refine (h.alike_boundVariable hn).bind fun v hv => ?_
  cases v with
  | some v => exact hl.force h hv
  | none =>
    refine (h.alike_boundTemplate hn).bind fun blk hblk => ?_
    cases blk with
    | some blk => exact hl.block (hblk a)
    | none => exact .fail hv

theorem repeatFor (hl : L.Levels a b l m) {item : String} {body : Block} (hb : L.block a body)
    {values : List Value} (hset : ∀ v ∈ values, ∀ E F, L.environments E F →
      L.environments (E.setVariable item v) (F.setVariable item v)) :
    L.Alike a b (fun _ => True) (l.repeatFor item body values) (m.repeatFor item body values) := by
  induction values with
  | nil => exact .pure trivial
  | cons v rest ih =>
    simp only [Level.repeatFor]
    refine (Alike.change (hset v (by simp))).bind fun _ _ => ?_
    refine (hl.blockText hb).bind fun _ _ => ?_
    exact (ih fun w hw => hset w (by simp [hw])).bind fun _ _ => .pure trivial

theorem document (hl : L.Levels a b l m) (h : L.Laws gap c d) {name source : String}
    (hok : ∀ blk, Block.ofSource source = .ok blk → L.block a blk)
    (herror : ∀ e, Block.ofSource source = .error e →
      L.failure (.error (.unloadable name (.malformed e)))) :
    L.Alike a b (fun _ => True) (l.document name source) (m.document name source) := by
  unfold Level.document
  split
  · next e he => exact .fail (herror e he)
  · next blk hblk =>
    refine (hl.block (hok blk hblk)).discard.tryCatch (fun f hf => ?_) fun f s hf => ?_
    · cases f with
      | error e => exact .fail (h.imported hf)
      | endless => exact .throw hf
    · cases f with
      | error e => exact ⟨_, _, rfl, h.excused_imported hf⟩
      | endless => exact ⟨_, _, rfl, hf⟩

theorem importModule (hl : L.Levels a b l m) (h : L.Laws gap c d) {name : String}
    (hload : L.Loaders a name c.loader d.loader) :
    L.Alike a b (fun _ => True) (l.importModule c name) (m.importModule d name) := by
  unfold Level.importModule
  generalize c.loader = k, d.loader = k' at hload
  cases hload with
  | none => exact .fail (h.plain .noLoader)
  | @some k k' hload =>
    simp only
    generalize k.load name = r, k'.load name = r' at hload
    cases hload with
    | document hok herror => exact hl.document h hok herror
    | bindings hset => exact .change hset
    | error hf => exact .fail hf
    | excused hf => exact .excuse hf _

end Levels

/-! ### Elements -/

/-- **What an element does is alike**, given levels of its parts that are. -/
theorem Laws.directive (h : L.Laws gap c d) {l m : Level} (hl : L.Levels (a + 1) (b + 1) l m)
    {name : String} {arguments : List Block} (he : L.element a name arguments) :
    L.Alike (a + 1) (b + 1) L.result (BraceMarkup.directive c l name arguments)
      (BraceMarkup.directive d m name arguments) := by
  have hargument := fun {blk : Block} (hblk : blk ∈ arguments) => h.arguments he hblk
  unfold BraceMarkup.directive
  split
  · exact .fail (h.plain .unknownDirective)
  · next hd =>
    exact (hl.importModule h (h.importModule he hd)).bind fun _ _ => .pure result_none
  · next hd =>
    refine (Alike.change fun E F hE => ?_).bind fun _ _ => .pure result_none
    exact h.template he hd hE
  · next binder body hd =>
    refine (hl.resolve h (hargument (by simp)).1 (hargument (by simp)).2).bind fun v hv => ?_
    refine (Alike.change fun E F hE => ?_).bind fun _ _ => .pure result_none
    obtain ⟨hv, hk⟩ := h.result_getD hv
    exact h.define he hd hv hk hE
  · next binder overrides hd =>
    split
    · exact .fail (h.plain .wrongArity)
    · exact hl.extendTemplate h (hargument (by simp)).1 fun blk hblk =>
        (hargument (by simp [hblk])).2
  · next negated condition body otherwise hd =>
    split
    · exact .fail (h.plain .wrongArity)
    · exact hl.branch h (hargument (by simp)) (hargument (by simp)) fun blk hblk =>
        hargument (by simp [hblk])
  · next item items body hd =>
    refine (hl.listItems h (hargument (by simp)).1).bind fun values hvalues => ?_
    refine (hl.repeatFor (hargument (by simp)).2 fun v hv E F hE => ?_).bind fun _ _ =>
      .pure (h.result_text _)
    exact h.foreach he hd (hvalues v hv) hE
  · refine (hl.listItems h (hargument (by simp)).1).bind fun values hvalues => ?_
    refine (Alike.mapM fun v hv => hl.print (.inl (hvalues v hv))).bind fun _ _ => ?_
    exact .pure (h.result_text _)
  · split
    · exact .pure (h.result_text _)
    · exact .fail (h.plain .unknownChar)
  · next hd => exact hl.block (h.inlined he hd)
  · exact hl.reference h (hargument (by simp)).1
  · exact .fail (h.plain .wrongArity)

/-! ### Blocks -/

/-- Parts whose values may be yielded. -/
def parts (L : Lockstep) (ps : List Part) : Prop := ∀ v, .value v ∈ ps → L.result v

theorem alike_evaluateParts (h : L.Laws gap c d) {x y : ElementEvaluator} {blk : Block}
    (hx : ∀ name arguments, (name, arguments) ∈ blk.elements →
      L.Alike a b L.result (x name arguments) (y name arguments)) :
    L.Alike a b L.parts (evaluateParts c x blk) (evaluateParts d y blk) := by
  induction blk with
  | nil => exact .pure (by rintro v ⟨⟩)
  | cons node rest ih =>
    cases node with
    | text s =>
      simp only [evaluateParts, h.trimSpaces]
      refine (ih fun name arguments hm => hx name arguments hm).bind fun ps hps => .pure ?_
      rintro v (_ | ⟨_, hv⟩)
      exact hps v hv
    | element name arguments =>
      simp only [evaluateParts]
      refine (hx name arguments (by simp [Block.elements])).bind fun v hv => ?_
      refine (ih fun name arguments hm => hx name arguments ?_).bind fun ps hps => .pure ?_
      · exact List.mem_cons_of_mem _ hm
      · rintro w (_ | ⟨_, hw⟩)
        · exact hv
        · exact hps w hw

theorem alike_printParts {p q : Value → Evaluation String}
    (hp : ∀ v, L.shown v → L.Alike a b (fun _ => True) (p v) (q v)) {ps : List Part}
    (hps : L.parts ps) : L.Alike a b (fun _ => True) (printParts p ps) (printParts q ps) := by
  induction ps with
  | nil => exact .pure trivial
  | cons part rest ih =>
    have ih := ih fun v hv => hps v (by simp [hv])
    rcases part with s | (_ | v)
    · exact ih.bind fun _ _ => .pure trivial
    · exact ih
    · have hv := hps (some v) (by simp) v rfl
      exact (hp v (.inr hv)).bind fun _ _ => ih.bind fun _ _ => .pure trivial

theorem result_firstValue? {ps : List Part} (hps : L.parts ps) : L.result (firstValue? ps) := by
  induction ps with
  | nil => exact result_none
  | cons part rest ih =>
    have ih := ih fun v hv => hps v (by simp [hv])
    rcases part with s | (_ | v)
    · exact ih
    · exact ih
    · exact hps (some v) (by simp)

theorem alike_evaluateNodes (h : L.Laws gap c d) {x y : ElementEvaluator}
    {p q : Value → Evaluation String} {blk : Block}
    (hx : ∀ name arguments, (name, arguments) ∈ blk.elements →
      L.Alike a b L.result (x name arguments) (y name arguments))
    (hp : ∀ v, L.shown v → L.Alike a b (fun _ => True) (p v) (q v)) :
    L.Alike a b L.result (evaluateNodes c x p blk) (evaluateNodes d y q blk) := by
  unfold evaluateNodes
  refine (alike_evaluateParts h hx).bind fun ps hps => ?_
  split
  · exact .pure (result_firstValue? hps)
  · exact (alike_printParts hp hps).bind fun _ _ => .pure (h.result_text _)

/-! ### Levels -/

/-- The two evaluations may print deferred blocks equally deep inside each other.  How deep plays no
    part if no deferred block stands in a list. -/
def Depths (L : Lockstep) (k k' : Nat) : Prop := k = k' ∨ ∀ blk, ¬ L.item (.deferred blk)

theorem levels_ofElement (h : L.Laws gap c d) {x y : Nat → ElementEvaluator}
    (hx : ∀ k k', L.Depths k k' → ∀ name arguments, L.element a name arguments →
      L.Alike a b L.result (x k name arguments) (y k' name arguments)) {k k' : Nat}
    (hk : L.Depths k k') : L.Levels a b (Level.ofElement c x k) (Level.ofElement d y k') := by
  have hlevels : ∀ {k k' : Nat} {p q : Block → Evaluation String}, L.Depths k k' →
      (∀ blk, L.item (.deferred blk) → L.Alike a b (fun _ => True) (p blk) (q blk)) →
      L.Levels a b ⟨evaluateNodes c (x k) (printValue p), printValue p⟩
        ⟨evaluateNodes d (y k') (printValue q), printValue q⟩ := fun hk hp => {
    print := h.alike_printValue hp
    block := fun hblk => alike_evaluateNodes h
      (fun name arguments hm => hx _ _ hk name arguments (hblk name arguments hm))
      fun v hv => h.alike_printValue hp hv }
  induction k generalizing k' with
  | zero =>
    cases k' with
    | zero =>
      refine hlevels hk fun blk hi => ?_
      rcases h.endless hi with hexc | hfail
      · exact .excuse hexc _
      · exact .throw hfail
    | succ k' =>
      refine hlevels hk fun blk hi => ?_
      rcases hk with hk | hk
      · exact absurd hk (Nat.succ_ne_zero k').symm
      · exact absurd hi (hk blk)
  | succ k ih =>
    cases k' with
    | zero =>
      refine hlevels hk fun blk hi => ?_
      rcases hk with hk | hk
      · exact absurd hk (Nat.succ_ne_zero k)
      · exact absurd hi (hk blk)
    | succ k' =>
      have ih := ih (hk.imp Nat.succ.inj id)
      refine hlevels hk fun blk hi => ?_
      exact ih.blockText (h.deferred (h.value_of_item hi))

/-- **The levels are alike**, whatever their numbers, as long as these suffice for the elements that
    may yet become active. -/
theorem Laws.level (h : L.Laws gap c d) {n m k k' : Nat} (hgap : a = b + gap)
    (hn : maxActive ≤ a + n) (hm : maxActive ≤ b + m) (hk : L.Depths k k') :
    L.Levels a b (BraceMarkup.level c (BraceMarkup.directive c) n k)
      (BraceMarkup.level d (BraceMarkup.directive d) m k') := by
  have hlimit : ∀ {a b : Nat}, a = b + gap → ∀ {name : String} {arguments : List Block},
      L.element a name arguments → maxActive ≤ a →
      L.excused (.error (.recursionLimit (elementLabel name arguments))) ∨
        maxActive ≤ b ∧ L.failure (.error (.recursionLimit (elementLabel name arguments))) := by
    intro a b hgap name arguments he ha
    rcases h.limit he ha with hexc | ⟨h0, hfail⟩
    · exact .inl hexc
    · exact .inr ⟨by omega, hfail⟩
  induction n generalizing a b m k k' with
  | zero =>
    -- too many elements are active for the first evaluation, whatever the second can do
    cases m <;>
    · refine levels_ofElement h (fun k k' _ name arguments he => ?_) hk
      exact .whileActive (fun ha => absurd hn (Nat.not_le.2 ha)) (hlimit hgap he)
  | succ n ih =>
    cases m with
    | zero =>
      refine levels_ofElement h (fun k k' _ name arguments he => ?_) hk
      exact .whileActive (fun ha => absurd ha (by omega)) (hlimit hgap he)
    | succ m =>
      refine levels_ofElement h (fun k k' hk name arguments he => ?_) hk
      refine .whileActive (fun ha => ⟨by omega, ?_⟩) (hlimit hgap he)
      exact h.directive (ih (by omega) (by omega) (by omega) hk) he

end

end Lockstep

end BraceMarkup
