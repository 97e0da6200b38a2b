/-
  Blocks one after the other.

  A block is evaluated in two rounds: its elements are evaluated, first to
  last, and then the texts of what they yielded are put together.  Where no
  list holds a deferred block the second round evaluates nothing, and two
  blocks one after the other are evaluated like the first and then the second.
  A deferred block in a list is evaluated in the second round, and so sees what
  elements behind it have bound.

  * `Block.IsPaddedElement`: one element and blank text, which is left out of
    the value of the block;
  * `Level.Regular`: a level that evaluates blocks in two rounds and prints
    plain values as they are; `level_regular`: all levels do;
  * `outcome_element`, `outcome_element_limit`: a block of one element;
  * `evaluateParts_append`, `printParts_append`: the two rounds on two blocks;
  * `Level.Regular.blockText`, `Level.Regular.blockText_append`: the text of a
    block that is no padded element, and of two blocks;
  * `Engine.evaluate_append`: **two blocks are evaluated one after the other**
    in a session whose lists are plain;
  * `Engine.evaluate_append_starts_with`: the text of the first block begins
    that of both, if its elements yield no deferred block in a list;
  * `Engine.evaluate_append_late_binding`: otherwise the second block can
    change what an element of the first one prints.
-/
import BraceMarkup.Proofs.Template.Termination

namespace BraceMarkup

open Evaluation

/-! ## Shapes of blocks -/

/-- A block of one element, some blank text and no other text. -/
def Block.IsPaddedElement (b : Block) : Prop :=
  b.elements.length = 1 ∧ (∃ s, .text s ∈ b) ∧ ∀ s, .text s ∈ b → Text.isBlankText s = true

/-- A block with two elements, or with a text that is not blank.  Its value is a text, whatever
    follows it. -/
def Block.YieldsText (b : Block) : Prop :=
  2 ≤ b.elements.length ∨ ∃ s, .text s ∈ b ∧ Text.isBlankText s = false

theorem Block.elements_append (a b : Block) :
    Block.elements (a ++ b) = a.elements ++ b.elements := by
  induction a with
  | nil => rfl
  | cons node rest ih => cases node <;> simp [Block.elements, ih]

theorem Block.isLoneElement_iff {b : Block} : b.isLoneElement = true ↔
    b.elements.length = 1 ∧ ∀ s, .text s ∈ b → Text.isBlankText s = true := by
  simp only [Block.isLoneElement, Bool.and_eq_true, beq_iff_eq, List.all_eq_true]
  refine and_congr_right fun _ => ?_
  constructor
  · intro h s hs
    exact h _ hs
  · intro h node hn
    cases node with
    | text s => exact h s hn
    | element => rfl

/-- A lone element without text around it is the whole block. -/
theorem Block.eq_element_of_isLoneElement {b : Block} (h : b.isLoneElement = true)
    (hp : ¬ b.IsPaddedElement) : ∃ name arguments, b = [.element name arguments] := by
  obtain ⟨hone, hblank⟩ := Block.isLoneElement_iff.1 h
  have hno : ∀ s, .text s ∉ b := by
    intro s hs
    exact hp ⟨hone, ⟨s, hs⟩, hblank⟩
  cases b with
  | nil => cases hone
  | cons first rest =>
    cases first with
    | text s => exact absurd List.mem_cons_self (hno s)
    | element name arguments =>
      refine ⟨name, arguments, ?_⟩
      cases rest with
      | nil => rfl
      | cons second rest =>
        cases second with
        | text s => exact absurd (List.mem_cons_of_mem _ List.mem_cons_self) (hno s)
        | element => exact absurd hone (by simp [Block.elements])

theorem Block.YieldsText.not_lone {b : Block} (h : b.YieldsText) : b.isLoneElement = false := by
  rw [Bool.eq_false_iff, ne_eq, Block.isLoneElement_iff]
  rintro ⟨hone, hblank⟩
  rcases h with h | ⟨s, hs, h⟩
  · omega
  · exact absurd (hblank s hs) (by simp [h])

theorem Block.YieldsText.not_padded {b : Block} (h : b.YieldsText) : ¬ b.IsPaddedElement := by
  rintro ⟨hone, -, hblank⟩
  exact absurd (Block.isLoneElement_iff.2 ⟨hone, hblank⟩) (by simp [h.not_lone])

theorem Block.YieldsText.append {a : Block} (h : a.YieldsText) (b : Block) :
    Block.YieldsText (a ++ b) := by
  rcases h with h | ⟨s, hs, h⟩
  · left
    rw [Block.elements_append, List.length_append]
    omega
  · exact .inr ⟨s, List.mem_append_left b hs, h⟩

/-! ## Printing of plain values -/

section
variable (printDeferred : Block → Evaluation String)

mutual

/-- A plain value is printed as it is, and nothing is evaluated for it. -/
theorem printValue_plain : ∀ {v : Value}, v.Plain → printValue printDeferred v = pure v.display
  | .text _, _ | .number _, _ | .boolean _, _ => by simp only [printValue]
  | .list items, h => by
    have hitems : printItems printDeferred items = pure (Value.displayItems items) :=
      printItems_plain h
    simp only [printValue, hitems, pure_bind, Value.display]

theorem printItems_plain : ∀ {items : List Value}, Value.PlainItems items →
    printItems printDeferred items = pure (Value.displayItems items)
  | [], _ => rfl
  | item :: rest, h => by
    simp only [printItems, printValue_plain h.1, printItems_plain h.2, pure_bind,
      Value.displayItems]

end

end

/-! ## Two rounds -/

/-- The value of an element, which is that of a block with nothing else in it. -/
def Level.element (l : Level) : ElementEvaluator := fun name arguments =>
  l.block [.element name arguments]

/-- A level that evaluates the elements of a block before it prints what they yield, and prints
    plain values as they are. -/
structure Level.Regular (config : Config) (l : Level) : Prop where
  block (b : Block) : l.block b = evaluateNodes config l.element l.print b
  print {v : Value} : v.Plain → l.print v = pure v.display

/-- Where there are only texts, nothing is evaluated. -/
theorem evaluateParts_of_no_elements (config : Config) (element : ElementEvaluator) {b : Block}
    (hb : b.elements = []) :
    ∃ ps, evaluateParts config element b = pure ps ∧ firstValue? ps = none := by
  induction b with
  | nil => exact ⟨[], rfl, rfl⟩
  | cons node rest ih =>
    cases node with
    | text s =>
      obtain ⟨ps, hps, hnone⟩ := ih hb
      refine ⟨.text (if config.trimSpaces then Text.trimSpaces s else s) :: ps, ?_, hnone⟩
      simp only [evaluateParts, hps, pure_bind]
    | element => cases hb

/-- Texts around a single element play no part in the first value there is. -/
theorem evaluateParts_firstValue? (config : Config) (element : ElementEvaluator) {b : Block}
    {name : String} {arguments : List Block} (hb : b.elements = [(name, arguments)]) :
    (do return firstValue? (← evaluateParts config element b)) = element name arguments := by
  induction b with
  | nil => cases hb
  | cons node rest ih =>
    cases node with
    | text s => simpa only [evaluateParts, bind_assoc, pure_bind, firstValue?] using ih hb
    | element other others =>
      obtain ⟨heq, hrest⟩ := List.cons.inj hb
      cases heq
      obtain ⟨ps, hps, hnone⟩ := evaluateParts_of_no_elements config element hrest
      have hvalue : ∀ v, firstValue? (.value v :: ps) = v := fun v => by
        cases v with
        | none => exact hnone
        | some v => rfl
      simp only [evaluateParts, hps, bind_assoc, pure_bind, hvalue, bind_pure]

/-- A block with one element and blank text has the value of the element. -/
theorem evaluateNodes_of_lone (config : Config) (element : ElementEvaluator)
    (print : Value → Evaluation String) {b : Block} (hlone : b.isLoneElement = true)
    {name : String} {arguments : List Block} (hb : b.elements = [(name, arguments)]) :
    evaluateNodes config element print b = element name arguments := by
  rw [← evaluateParts_firstValue? config element hb]
  simp only [evaluateNodes, hlone, if_true]

/-- A block with nothing but one element in it has the value of the element. -/
theorem evaluateNodes_element (config : Config) (element : ElementEvaluator)
    (print : Value → Evaluation String) (name : String) (arguments : List Block) :
    evaluateNodes config element print [.element name arguments] = element name arguments :=
  evaluateNodes_of_lone config element print rfl rfl

theorem Level.ofElement_regular (config : Config) (element : Nat → ElementEvaluator)
    (depth : Nat) : (Level.ofElement config element depth).Regular config := by
  have helement : (Level.ofElement config element depth).element = element depth := by
    funext name arguments
    cases depth <;> exact evaluateNodes_element ..
  constructor
  · intro b
    rw [helement]
    cases depth <;> rfl
  · intro v h
    cases depth <;> exact printValue_plain _ h

/-- All levels evaluate blocks in two rounds. -/
theorem level_regular (config : Config) (run : Level → ElementEvaluator) (n depth : Nat) :
    (level config run n depth).Regular config := by
  cases n <;> exact Level.ofElement_regular ..

section
variable {config : Config} {run : Level → ElementEvaluator} {n depth a : Nat} {E : Environment}
  {name : String} {arguments : List Block}

/-- A block of one element: one more element is active while the directive does its work. -/
theorem level_element :
    (level config run (n + 1) depth).block [.element name arguments] =
      whileActive (elementLabel name arguments)
        (run (level config run n depth) name arguments) := by
  cases depth <;> exact evaluateNodes_element ..

theorem outcome_element (ha : a < maxActive) :
    ((level config run (n + 1) depth).block [.element name arguments]).outcome ⟨E, a⟩ =
      let (result, s) := (run (level config run n depth) name arguments).outcome ⟨E, a + 1⟩
      (result, { s with active := s.active - 1 }) := by
  rw [level_element, outcome_whileActive, if_neg (Nat.not_le.2 ha)]

/-- Where too many elements are active, an element comes to the limit, at any level. -/
theorem outcome_element_limit (ha : maxActive ≤ a) :
    ((level config run n depth).block [.element name arguments]).outcome ⟨E, a⟩ =
      (.error (.error (.recursionLimit (elementLabel name arguments))), ⟨E, a⟩) := by
  have hblock : ∃ x, (level config run n depth).block [.element name arguments] =
      whileActive (elementLabel name arguments) x := by
    cases n <;> cases depth <;> exact ⟨_, evaluateNodes_element ..⟩
  obtain ⟨x, hx⟩ := hblock
  rw [hx, outcome_whileActive, if_pos ha]

end

theorem evaluateParts_append (config : Config) (element : ElementEvaluator) (a b : Block) :
    evaluateParts config element (a ++ b) = (do
      let ps ← evaluateParts config element a
      let qs ← evaluateParts config element b
      return ps ++ qs) := by
  induction a with
  | nil => simp [evaluateParts]
  | cons node rest ih => cases node <;> simp [evaluateParts, ih]

theorem printParts_append (print : Value → Evaluation String) (ps qs : List Part) :
    printParts print (ps ++ qs) = (do
      let s ← printParts print ps
      let t ← printParts print qs
      return s ++ t) := by
  induction ps with
  | nil => simp [printParts, -bind_pure_comp]
  | cons part rest ih =>
    rcases part with s | (_ | v) <;>
      simp only [List.cons_append, printParts, ih, bind_assoc, pure_bind, String.append_assoc]

/-- Parts without a deferred block in a list. -/
def PlainParts (ps : List Part) : Prop := ∀ v, .value (some v) ∈ ps → v.Plain

namespace Level.Regular

variable {config : Config} {l : Level}

/-- A block fails as its only element does. -/
theorem outcome_error (h : l.Regular config) {b : Block} {name : String} {arguments : List Block}
    (hb : b.elements = [(name, arguments)]) {f : Failure} {s s' : EvaluationState}
    (hf : (l.block [.element name arguments]).outcome s = (.error f, s')) :
    (l.block b).outcome s = (.error f, s') := by
  have hparts : (evaluateParts config l.element b).outcome s = (.error f, s') := by
    induction b with
    | nil => cases hb
    | cons node rest ih =>
      cases node with
      | text t => rw [evaluateParts, outcome_bind, ih hb]
      | element other others =>
        obtain ⟨heq, -⟩ := List.cons.inj hb
        cases heq
        rw [evaluateParts, outcome_bind, Level.element, hf]
  rw [h.block, evaluateNodes, outcome_bind, hparts]

/-- Plain parts are printed without evaluating anything. -/
theorem printParts (h : l.Regular config) {ps : List Part} (hps : PlainParts ps) :
    ∃ s, BraceMarkup.printParts l.print ps = pure s := by
  induction ps with
  | nil => exact ⟨"", rfl⟩
  | cons part rest ih =>
    obtain ⟨s, hs⟩ := ih fun v hv => hps v (List.mem_cons_of_mem _ hv)
    rcases part with text | (_ | v)
    · exact ⟨text ++ s, by simp [BraceMarkup.printParts, hs]⟩
    · exact ⟨s, by simp [BraceMarkup.printParts, hs]⟩
    · exact ⟨v.display ++ s, by simp [BraceMarkup.printParts, hs, h.print (hps v (by simp))]⟩

/-- The text of a block that is no padded element: its elements are evaluated, and then what they
    yielded is printed.  For a single element that is the text of its value. -/
theorem blockText (h : l.Regular config) {b : Block} (hb : ¬ b.IsPaddedElement) :
    l.blockText b =
      evaluateParts config l.element b >>= BraceMarkup.printParts l.print := by
  rw [Level.blockText, h.block]
  by_cases hlone : b.isLoneElement = true
  · obtain ⟨name, arguments, rfl⟩ := Block.eq_element_of_isLoneElement hlone hb
    rw [evaluateNodes_element]
    simp only [evaluateParts, bind_assoc, pure_bind]
    refine bind_congr fun v => ?_
    cases v <;> simp [BraceMarkup.printParts, printResult]
  · have hprint : ∀ s, l.print (.text s) = pure s := fun s => h.print (v := .text s) trivial
    simp only [evaluateNodes, hlone, if_false, bind_assoc, pure_bind, printResult, hprint,
      bind_pure, Bool.false_eq_true]

/-- The text of two blocks.  The elements of both are evaluated before anything is printed. -/
theorem blockText_append (h : l.Regular config) {a b : Block}
    (hab : ¬ Block.IsPaddedElement (a ++ b)) :
    l.blockText (a ++ b) = (do
      let ps ← evaluateParts config l.element a
      let qs ← evaluateParts config l.element b
      let s ← BraceMarkup.printParts l.print ps
      let t ← BraceMarkup.printParts l.print qs
      return s ++ t) := by
  simp only [h.blockText hab, evaluateParts_append, bind_assoc, pure_bind, printParts_append]

end Level.Regular

/-! ## Sessions whose lists are plain -/

/-- What a computation that compares with itself yields and leaves behind, in an environment whose
    lists are plain: no element is active, and the lists are plain again. -/
theorem Lockstep.Alike.exists_outcome {α : Type} {P : α → Prop} {x : Evaluation α}
    (h : Lockstep.plainLists.Alike 0 0 P x x) {E : Environment} (hE : E.ListsPlain) :
    ∃ r F, x.outcome ⟨E, 0⟩ = (r, ⟨F, 0⟩) ∧ F.ListsPlain ∧ ∀ v, r = .ok v → P v := by
  have hx := h E E ⟨rfl, hE⟩
  generalize x.outcome ⟨E, 0⟩ = o at hx ⊢
  cases hx with
  | @ok v F _ hv hF => exact ⟨.ok v, F, rfl, hF.2, fun _ hw => Except.ok.inj hw ▸ hv⟩
  | @error f F _ _ hF => exact ⟨.error f, F, rfl, hF.2, by rintro v ⟨⟩⟩
  | excused hf => exact hf.elim

/-- The elements of a block yield no deferred block in a list. -/
theorem Lockstep.plainLists_parts {c : Config} (hc : c.LoadsDocuments) (b : Block) :
    Lockstep.plainLists.Alike 0 0 PlainParts
      (evaluateParts c (Engine.topLevel c).element b)
      (evaluateParts c (Engine.topLevel c).element b) := by
  refine (alike_evaluateParts (plainLists_laws hc) fun _ _ _ =>
    (plainLists_topLevel hc).block (plainLists_block 0 _)).mono fun ps hps v hv => ?_
  obtain ⟨hplain, hkind⟩ := hps (some v) hv v rfl
  exact hplain.plain hkind

namespace Engine

theorem topLevel_regular (config : Config) : (topLevel config).Regular config := level_regular ..

/-- **Two blocks are evaluated one after the other**, in a session whose lists are plain and whose
    modules are documents, unless one of the blocks is an element with blank text around it, or both
    together are.  The second one is evaluated in the session that the first one leaves, if that
    does not fail, and the texts are put together. -/
theorem evaluate_append {e : Engine} (hc : e.config.LoadsDocuments)
    (he : e.environment.ListsPlain) {a b : Block} (ha : ¬ a.IsPaddedElement)
    (hb : ¬ b.IsPaddedElement) (hab : ¬ Block.IsPaddedElement (a ++ b)) :
    (∃ r : Except EvalError String, (e.evaluate (a ++ b)).1 = r.mapError .error) ∧
    e.evaluate (a ++ b) =
      match e.evaluate a with
      | (.error f, e') => (.error f, e')
      | (.ok s, e') =>
        match e'.evaluate b with
        | (.error f, e'') => (.error f, e'')
        | (.ok t, e'') => (.ok (s ++ t), e'') := by
  have htext := (Lockstep.plainLists_topLevel hc).blockText (Lockstep.plainLists_block 0 (a ++ b))
  refine ⟨(htext.ends he).1, ?_⟩
  have hreg := topLevel_regular e.config
  obtain ⟨r, E, hr, hE, hps⟩ := (Lockstep.plainLists_parts hc a).exists_outcome he
  simp only [evaluate, run, hreg.blockText ha, hreg.blockText_append hab, outcome_bind, hr]
  cases r with
  | error f => rfl
  | ok ps =>
    obtain ⟨s, hs⟩ := hreg.printParts (hps ps rfl)
    obtain ⟨r, F, hr, -, hqs⟩ := (Lockstep.plainLists_parts hc b).exists_outcome hE
    simp only [hs, outcome_pure, outcome_bind, hr, hreg.blockText hb]
    cases r with
    | error f => rfl
    | ok qs =>
      -- what the first block yielded is printed behind the elements of the second one
      obtain ⟨t, ht⟩ := hreg.printParts (hqs qs rfl)
      simp only [ht, outcome_pure]

/-- A definition, and then a use of it. -/
theorem evaluate_append_define :
    let e : Engine := .ofConfig .default
    let a : Block := [.element "define" [[.text "x"], [.text "p"]]]
    let b : Block := [.text "x: ", .element "" [[.text "x"]]]
    (e.config.LoadsDocuments ∧ e.environment.ListsPlain) ∧
      (¬ a.IsPaddedElement ∧ ¬ b.IsPaddedElement ∧ ¬ Block.IsPaddedElement (a ++ b)) ∧
      (e.evaluate (a ++ b)).1 = .ok "x: p" := by
  intro e a b
  have hc : e.config.LoadsDocuments := .inl rfl
  have he : e.environment.ListsPlain := by rintro name value ⟨⟩
  have ha : ¬ a.IsPaddedElement := by
    rintro ⟨-, ⟨s, hs⟩, -⟩
    simp [a] at hs
  have hb : ¬ b.IsPaddedElement :=
    Block.YieldsText.not_padded (.inr ⟨"x: ", by simp [b], by decide⟩)
  have hab : ¬ Block.IsPaddedElement (a ++ b) := Block.YieldsText.not_padded (.inl (by decide))
  refine ⟨⟨hc, he⟩, ⟨ha, hb, hab⟩, ?_⟩
  rw [(evaluate_append hc he ha hb hab).2]
  rfl

/-! ## Sessions with deferred blocks in lists -/

/-- The elements of a block yield no deferred block in a list. -/
def YieldsPlain (e : Engine) (b : Block) : Prop :=
  ∀ ps s, (evaluateParts e.config (topLevel e.config).element b).outcome ⟨e.environment, 0⟩ =
    (.ok ps, s) → PlainParts ps

/-- The elements of two blocks are evaluated before anything is printed, so that what prints the
    first block is evaluated behind the elements of the second one.  **The text of the first block
    begins that of both** if its elements yield no deferred block in a list, as is always so in a
    session whose lists are plain. -/
theorem evaluate_append_starts_with (e : Engine) {a : Block} (ha : a.YieldsText) :
    (∀ b : Block, e.evaluate (a ++ b) = e.run (do
      let l := topLevel e.config
      let ps ← evaluateParts e.config l.element a
      let qs ← evaluateParts e.config l.element b
      let s ← printParts l.print ps
      let t ← printParts l.print qs
      return s ++ t)) ∧
    (e.YieldsPlain a → ∀ (b : Block) (s t : String), (e.evaluate a).1 = .ok s →
      (e.evaluate (a ++ b)).1 = .ok t → ∃ u, t = s ++ u) ∧
    (e.config.LoadsDocuments → e.environment.ListsPlain → e.YieldsPlain a) := by
  have hreg := topLevel_regular e.config
  refine ⟨?_, ?_, ?_⟩
  · intro b
    simp only [evaluate, hreg.blockText_append (ha.append b).not_padded]
  · intro hplain b s t hs ht
    rw [evaluate, hreg.blockText ha.not_padded] at hs
    rw [evaluate, hreg.blockText_append (ha.append b).not_padded] at ht
    obtain ⟨ps, E, hps, hs⟩ := exists_of_outcome_bind hs
    obtain ⟨s', hprint⟩ := hreg.printParts (hplain ps E hps)
    obtain rfl : s' = s := by simpa [hprint] using hs
    -- the elements of the first block yield the same parts again, and these print the same
    obtain ⟨ps', E', hps', ht⟩ := exists_of_outcome_bind ht
    obtain ⟨rfl, rfl⟩ : ps = ps' ∧ E = E' := by simpa [hps] using hps'
    obtain ⟨qs, F, -, ht⟩ := exists_of_outcome_bind ht
    obtain ⟨s, G, hs, ht⟩ := exists_of_outcome_bind ht
    obtain ⟨rfl, -⟩ : s' = s ∧ F = G := by simpa [hprint] using hs
    obtain ⟨u, _, -, ht⟩ := exists_of_outcome_bind ht
    exact ⟨u, (Except.ok.inj ht).symm⟩
  · intro hc he ps E hps
    obtain ⟨r, F, hr, -, hplain⟩ := (Lockstep.plainLists_parts hc a).exists_outcome he
    rw [hr] at hps
    cases hps
    exact hplain ps rfl

/-- A variable that is printed, and then bound anew. -/
theorem evaluate_append_starts_with_reference :
    let e : Engine := ⟨.default, ⟨[("x", .text "old")], []⟩⟩
    let a : Block := [.text "v: ", .element "" [[.text "x"]]]
    let b : Block := [.element "define" [[.text "x"], [.text "new"]]]
    (a.YieldsText ∧ e.config.LoadsDocuments ∧ e.environment.ListsPlain ∧
      (e.evaluate a).1 = .ok "v: old" ∧ (e.evaluate (a ++ b)).1 = .ok "v: old") ∧
      ∃ u, "v: old" = "v: old" ++ u := by
  intro e a b
  have ha : a.YieldsText := .inr ⟨"v: ", by simp [a], by decide⟩
  have hc : e.config.LoadsDocuments := .inl rfl
  have he : e.environment.ListsPlain := by
    intro name value h
    simp only [e, Bindings.get?] at h
    split at h <;> cases h
    trivial
  have hs : (e.evaluate a).1 = .ok "v: old" := rfl
  have ht : (e.evaluate (a ++ b)).1 = .ok "v: old" := rfl
  refine ⟨⟨ha, hc, he, hs, ht⟩, ?_⟩
  obtain ⟨-, hstarts, hplain⟩ := evaluate_append_starts_with e ha
  exact hstarts (hplain hc he) b _ _ hs ht

/-- A list is printed with what is bound to `x` behind it, since the deferred block in the list is
    evaluated only when everything else is. -/
theorem evaluate_append_late_binding :
    let e : Engine := ⟨.default, ⟨[("items", .list [.deferred [.element "" [[.text "x"]]]]),
      ("x", .text "old")], []⟩⟩
    let a : Block := [.text "v: ", .element "" [[.text "items"]]]
    let b : Block := [.element "define" [[.text "x"], [.text "new"]]]
    a.YieldsText ∧ (e.evaluate a).1 = .ok "v: [old]" ∧ (e.evaluate (a ++ b)).1 = .ok "v: [new]" ∧
      ¬ ∃ u, "v: [new]" = "v: [old]" ++ u := by
  intro e a b
  refine ⟨.inr ⟨"v: ", by simp [a], by decide⟩, rfl, rfl, ?_⟩
  rintro ⟨u, hu⟩
  have hchars := congrArg String.toList hu
  simp [String.toList_append] at hchars

end Engine

end BraceMarkup
