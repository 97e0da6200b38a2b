/-
  Values that are wrapped.

  A block may stand inside of blank text, of a branch that is taken, and of an
  inlined block, and all that again inside of more.  As long as no more elements
  are nested than may be active, the value of the block is not touched by any
  of this: it is not turned into a text, and it is neither looked up nor read
  as a literal.

  * `Wrapper`: what a block can be wrapped in; `Wrapper.stack`: several of them
    around a block;
  * `Block.Holds`: a block is evaluated to a value, at any level that suffices,
    and binds nothing;
  * `Wrapper.holds_wrap`: one wrapper around a block that holds a value, with
    its line breaks and without them;
  * `Engine.evaluate_wrapped`: **a value keeps its kind** inside of any wrappers,
    in a definition and as a condition.
-/
import BraceMarkup.Proofs.Block.Arguments
import BraceMarkup.Proofs.Template.Composition

namespace BraceMarkup

open Evaluation

/-! ## Wrappers -/

/-- The name of a conditional whose branches may be the other way round. -/
def conditionalName (negated : Bool) : String := if negated then "unless" else "if"

/-- A boolean as it is written. -/
def booleanText (b : Bool) : String := if b then "true" else "false"

/-- What a block can be wrapped in. -/
inductive Wrapper where
  /-- Blank text in front of the block. -/
  | before (s : String) (blank : Text.isBlankText s = true)
  /-- Blank text behind the block. -/
  | after (s : String) (blank : Text.isBlankText s = true)
  /-- The first branch of a conditional, under a condition that selects it. -/
  | body (negated : Bool)
  /-- The second branch of a conditional, behind `other`. -/
  | otherwise (negated : Bool) (other : Block)
  | inline

namespace Wrapper

/-- A block in a wrapper. -/
def wrap : Wrapper → Block → Block
  | before s _, b => .text s :: b
  | after s _, b => b ++ [.text s]
  | body negated, b =>
    [.element (conditionalName negated) [[.text (booleanText !negated)], b]]
  | otherwise negated other, b =>
    [.element (conditionalName negated) [[.text (booleanText negated)], other, b]]
  | inline, b => [.element "inline" [b]]

/-- How many elements a wrapper puts around a block. -/
def elements : Wrapper → Nat
  | before _ _ | after _ _ => 0
  | _ => 1

/-- A block in several wrappers, the first of them outermost. -/
def stack : List Wrapper → Block → Block
  | [], b => b
  | w :: rest, b => w.wrap (stack rest b)

/-- How many elements several wrappers put around a block. -/
def depth : List Wrapper → Nat
  | [] => 0
  | w :: rest => w.elements + depth rest

end Wrapper

/-! ## What directives do with a value -/

namespace Level

variable {c : Config} {l : Level} {b : Block}

/-- The condition that is written out. -/
theorem condition_booleanText (l : Level) (name : String) (t : Bool) :
    l.condition name [.text (booleanText t)] = pure t := by
  have htrim : Text.trim (booleanText t) = booleanText t := by cases t <;> decide +kernel
  have hliteral : Value.literal? (booleanText t) = some (.boolean t) := by cases t <;> rfl
  have hresolve : l.resolve true [.text (booleanText t)] = pure (some (.boolean t)) := by
    simp only [resolve, Block.singleText?, htrim, hliteral]
  rw [condition, hresolve, pure_bind]
  rfl

/-- A block that is no text alone stands for its value. -/
theorem resolve_of_lone (hb : b.isLoneElement = true) (l : Level) (strict : Bool) :
    l.resolve strict b = l.block b := by
  have hnone : b.singleText? = none := by
    cases h : b.singleText? with
    | none => rfl
    | some s =>
      unfold Block.singleText? at h
      split at h <;> cases h
      cases hb
  rw [resolve, hnone]

/-- The first branch is taken if the condition that is written out holds, the other way round if the
    directive is negated. -/
theorem branch_body (l : Level) (name : String) (negated : Bool) (body : Block)
    (otherwise : List Block) :
    l.branch name negated [.text (booleanText !negated)] body otherwise = l.resolve false body := by
  unfold branch
  rw [condition_booleanText, pure_bind]
  cases negated <;> rfl

theorem branch_otherwise (l : Level) (name : String) (negated : Bool) (body otherwise : Block) :
    l.branch name negated [.text (booleanText negated)] body [otherwise] =
      l.resolve false otherwise := by
  rw [branch, condition_booleanText, pure_bind]
  cases negated <;> rfl

end Level

theorem directive_conditional (c : Config) (l : Level) (negated : Bool) (condition body : Block)
    (otherwise : List Block) (h : otherwise.length ≤ 1) :
    directive c l (conditionalName negated) (condition :: body :: otherwise) =
      l.branch (conditionalName negated) negated condition body otherwise := by
  have hname : Directive.ofName? (conditionalName negated) = some (.conditional negated) := by
    cases negated <;> rfl
  simp only [directive, hname, if_neg (Nat.not_lt.2 h)]

/-! ## Blocks that hold a value -/

/-- In the environment `E` the block, an element with blank text around it, is evaluated to `v` with
    room for `size` more elements, at any level that suffices, and binds nothing. -/
structure Block.Holds (c : Config) (depth : Nat) (E : Environment) (v : Value) (size : Nat)
    (b : Block) : Prop where
  lone : b.isLoneElement = true
  outcome (n a : Nat) : a + size ≤ maxActive → maxActive ≤ a + n →
    ((level c (directive c) n depth).block b).outcome ⟨E, a⟩ = (.ok (some v), ⟨E, a⟩)

namespace Block.Holds

variable {c : Config} {depth size : Nat} {E : Environment} {v : Value} {b : Block}

/-- What blank text stands around the element plays no part. -/
theorem congr (h : b.Holds c depth E v size) {other : Block} (hlone : other.isLoneElement = true)
    (helements : other.elements = b.elements) : other.Holds c depth E v size := by
  refine ⟨hlone, fun n a ha hn => ?_⟩
  obtain ⟨⟨name, arguments⟩, hb⟩ := List.length_eq_one_iff.1 (isLoneElement_iff.1 h.lone).1
  have hreg := level_regular c (directive c) n depth
  rw [← h.outcome n a ha hn, hreg.block, hreg.block,
    evaluateNodes_of_lone _ _ _ hlone (helements.trans hb), evaluateNodes_of_lone _ _ _ h.lone hb]

/-- An element that does nothing but evaluate a block. -/
theorem element (h : b.Holds c depth E v size) {name : String} {arguments : List Block}
    (hdirective : ∀ l, directive c l name arguments = l.block b) :
    Block.Holds c depth E v (1 + size) [.element name arguments] := by
  refine ⟨rfl, fun n a ha hn => ?_⟩
  obtain ⟨n, rfl⟩ : ∃ m, n = m + 1 := Nat.exists_eq_add_one.2 (by omega)
  rw [outcome_element (by omega), hdirective,
    h.outcome n (a + 1) (by omega) (by omega)]
  rfl

/-- A reference to a variable that stands for no deferred block. -/
theorem reference {binder : Block} (hv : E.values.get? (bindingName binder) = some v)
    (hk : v.kind ≠ .deferred) : Block.Holds c depth E v 1 [.element "" [binder]] := by
  refine ⟨rfl, fun n a ha hn => ?_⟩
  obtain ⟨n, rfl⟩ : ∃ m, n = m + 1 := Nat.exists_eq_add_one.2 (by omega)
  have hforce : ∀ l : Level, l.force v = pure (some v) := by
    intro l
    cases v with
    | deferred => exact absurd rfl hk
    | text | number | boolean | list => rfl
  rw [outcome_element (by omega), directive_reference, Level.reference,
    outcome_bind, outcome_boundVariable]
  simp only [hv, hforce, outcome_pure, Nat.add_sub_cancel]

/-- A definition binds the value. -/
theorem define (h : b.Holds c depth E v size) (name : Block) {n a : Nat}
    (ha : a + size < maxActive) (hn : maxActive ≤ a + n) :
    ((level c (directive c) n depth).block [.element "define" [name, b]]).outcome ⟨E, a⟩ =
      (.ok none, ⟨E.setVariable (bindingName name) v, a⟩) := by
  obtain ⟨n, rfl⟩ : ∃ m, n = m + 1 := Nat.exists_eq_add_one.2 (by omega)
  rw [outcome_element (by omega), directive_define, Level.resolve_of_lone h.lone,
    outcome_bind, h.outcome n (a + 1) (by omega) (by omega)]
  rfl

/-- A conditional does what the truth of the value says. -/
theorem conditional (h : b.Holds c depth E v size) (negated : Bool) (body : Block)
    {otherwise : List Block} (hlength : otherwise.length ≤ 1) {n a : Nat}
    (ha : a + size < maxActive) (hn : maxActive ≤ a + n) :
    let test (condition : Block) := ((level c (directive c) n depth).block
      [.element (conditionalName negated) (condition :: body :: otherwise)]).outcome ⟨E, a⟩
    (∀ t, v = .boolean t → test b = test [.text (booleanText t)]) ∧
      (v.kind ≠ .boolean → test b =
        (.error (.error (.typeMismatch (conditionalName negated) ⟨.boolean, some v.kind⟩)),
          ⟨E, a⟩)) := by
  intro test
  obtain ⟨n, rfl⟩ : ∃ m, n = m + 1 := Nat.exists_eq_add_one.2 (by omega)
  have htest : ∀ condition, test condition = _ := fun condition =>
    outcome_element (by omega)
  simp only [directive_conditional _ _ _ _ _ _ hlength, Level.branch, outcome_bind] at htest
  have hcondition : ((level c (directive c) n depth).condition (conditionalName negated) b).outcome
      ⟨E, a + 1⟩ = (expect (conditionalName negated) v.toBool).outcome ⟨E, a + 1⟩ := by
    rw [Level.condition, Level.resolve_of_lone h.lone, outcome_bind,
      h.outcome n (a + 1) (by omega) (by omega)]
  rw [htest, hcondition]
  constructor
  · rintro t rfl
    rw [htest, Level.condition_booleanText]
    rfl
  · intro hk
    cases v with
    | boolean => exact absurd rfl hk
    | text | number | list | deferred => rfl

end Block.Holds

/-- A block whose direct text stands in one line has the same direct text without its line
    breaks. -/
theorem Block.textContent_mapText_of_not_mem {b : Block} (h : '\n' ∉ b.textContent.toList) :
    (b.mapText Text.removeBreaks).textContent = b.textContent := by
  induction b with
  | nil => rfl
  | cons node rest ih =>
    cases node with
    | text s =>
      rw [textContent, String.toList_append, List.mem_append, not_or] at h
      rw [mapText, Node.mapText, textContent, textContent, Text.removeBreaks_of_not_mem h.1,
        ih h.2]
    | element name arguments => exact ih h

/-- The block holds a value as it is, and less its line breaks. -/
def Block.HoldsInline (c : Config) (depth : Nat) (E : Environment) (v : Value) (size : Nat)
    (b : Block) : Prop :=
  b.Holds c depth E v size ∧ (b.mapText Text.removeBreaks).Holds c depth E v size

namespace Wrapper

variable {c : Config} {depth size : Nat} {E : Environment} {v : Value} {b : Block}

theorem isLoneElement_before (hb : b.isLoneElement = true) {s : String}
    (hs : Text.isBlankText s = true) : Block.isLoneElement (.text s :: b) = true := by
  obtain ⟨hone, hblank⟩ := Block.isLoneElement_iff.1 hb
  refine Block.isLoneElement_iff.2 ⟨hone, fun t ht => ?_⟩
  rcases List.mem_cons.1 ht with heq | ht
  · cases heq
    exact hs
  · exact hblank t ht

theorem isLoneElement_after (hb : b.isLoneElement = true) {s : String}
    (hs : Text.isBlankText s = true) : Block.isLoneElement (b ++ [.text s]) = true := by
  obtain ⟨hone, hblank⟩ := Block.isLoneElement_iff.1 hb
  refine Block.isLoneElement_iff.2 ⟨?_, fun t ht => ?_⟩
  · rw [Block.elements_append]
    simpa [Block.elements] using hone
  · rcases List.mem_append.1 ht with ht | ht
    · exact hblank t ht
    · cases List.mem_singleton.1 ht
      exact hs

theorem holds_body (h : b.Holds c depth E v size) (negated : Bool) :
    Block.Holds c depth E v (1 + size)
      [.element (conditionalName negated) [[.text (booleanText !negated)], b]] := by
  refine h.element fun l => ?_
  rw [directive_conditional c l negated _ b [] (by decide), Level.branch_body,
    Level.resolve_of_lone h.lone]

theorem holds_otherwise (h : b.Holds c depth E v size) (negated : Bool) (other : Block) :
    Block.Holds c depth E v (1 + size)
      [.element (conditionalName negated) [[.text (booleanText negated)], other, b]] := by
  refine h.element fun l => ?_
  rw [directive_conditional c l negated _ other [b] (Nat.le_refl 1), Level.branch_otherwise,
    Level.resolve_of_lone h.lone]

/-- **One wrapper.**  A block that holds a value as it is, and less its line breaks, does so in the
    wrapper. -/
theorem holds_wrap (h : b.HoldsInline c depth E v size) (w : Wrapper) :
    (w.wrap b).HoldsInline c depth E v (w.elements + size) := by
  obtain ⟨hb, hinline⟩ := h
  have hcondition : ∀ t, Text.removeBreaks (booleanText t) = booleanText t := fun t =>
    Text.removeBreaks_of_not_mem (by cases t <;> decide)
  cases w with
  | before s hs =>
    rw [elements, Nat.zero_add]
    exact ⟨hb.congr (isLoneElement_before hb.lone hs) rfl,
      hinline.congr (isLoneElement_before hinline.lone (Text.isBlankText_removeBreaks hs)) rfl⟩
  | after s hs =>
    rw [elements, Nat.zero_add]
    have hmap : (wrap (after s hs) b).mapText Text.removeBreaks =
        b.mapText Text.removeBreaks ++ [.text (Text.removeBreaks s)] := by
      simp [wrap, Node.mapText]
    have helements : ∀ (b : Block) s, Block.elements (b ++ [.text s]) = b.elements := by
      intro b s
      rw [Block.elements_append]
      exact List.append_nil _
    rw [Block.HoldsInline, hmap]
    exact ⟨hb.congr (isLoneElement_after hb.lone hs) (helements _ _),
      hinline.congr (isLoneElement_after hinline.lone (Text.isBlankText_removeBreaks hs))
        (helements _ _)⟩
  | body negated =>
    refine ⟨holds_body hb negated, ?_⟩
    have hmapped := holds_body hinline negated
    rwa [← hcondition (!negated)] at hmapped
  | otherwise negated other =>
    refine ⟨holds_otherwise hb negated other, ?_⟩
    have hmapped := holds_otherwise hinline negated (other.mapText Text.removeBreaks)
    rwa [← hcondition negated] at hmapped
  | inline =>
    refine ⟨hinline.element fun l => directive_inline c l b, ?_⟩
    refine Block.Holds.element hinline fun l => ?_
    rw [Node.mapTextArguments, Node.mapTextArguments, directive_inline,
      Block.mapText_mapText Text.removeBreaks_removeBreaks]

/-- **A stack of wrappers.**  A reference whose name stands in one line holds the value of the
    variable in any of them. -/
theorem holds_stack {binder : Block} (hv : E.values.get? (bindingName binder) = some v)
    (hk : v.kind ≠ .deferred) (hline : '\n' ∉ binder.textContent.toList)
    (wrappers : List Wrapper) :
    (stack wrappers [.element "" [binder]]).HoldsInline c depth E v
      (Wrapper.depth wrappers + 1) := by
  induction wrappers with
  | nil =>
    have hname : bindingName (binder.mapText Text.removeBreaks) = bindingName binder := by
      rw [bindingName, Block.textContent_mapText_of_not_mem hline, bindingName]
    exact ⟨Block.Holds.reference hv hk, Block.Holds.reference (hname.symm ▸ hv) hk⟩
  | cons w rest ih =>
    rw [Wrapper.depth, Nat.add_assoc]
    exact holds_wrap ih w

end Wrapper

namespace Engine

/-- **A value keeps its kind.**  Inside of any wrappers, a reference to a variable is evaluated to
    its value, if that is no deferred block, and binds nothing, as long as no more elements are
    nested than may be active.  With room for one element more, a definition binds the value as it
    is, and a condition does what its truth says, if it is a boolean, and otherwise fails. -/
theorem evaluate_wrapped {e : Engine} {binder : Block} {v : Value}
    (hv : e.environment.values.get? (bindingName binder) = some v) (hk : v.kind ≠ .deferred)
    (hline : '\n' ∉ binder.textContent.toList) (wrappers : List Wrapper) :
    let b := Wrapper.stack wrappers [.element "" [binder]]
    (Wrapper.depth wrappers + 1 ≤ maxActive → e.evaluateBlock b = (.ok (some v), e)) ∧
    (Wrapper.depth wrappers + 1 < maxActive →
      (∀ name, e.evaluateBlock [.element "define" [name, b]] =
        (.ok none, { e with environment := e.environment.setVariable (bindingName name) v })) ∧
      ∀ negated body, ∀ otherwise : List Block, otherwise.length ≤ 1 →
        let test (condition : Block) := e.evaluateBlock
          [.element (conditionalName negated) (condition :: body :: otherwise)]
        (∀ t, v = .boolean t → test b = test [.text (booleanText t)]) ∧
        (v.kind ≠ .boolean → test b =
          (.error (.error (.typeMismatch (conditionalName negated) ⟨.boolean, some v.kind⟩)),
            e))) := by
  intro b
  have hb : b.Holds e.config maxPrintDepth e.environment v (Wrapper.depth wrappers + 1) :=
    (Wrapper.holds_stack hv hk hline wrappers).1
  have hlevels : maxActive ≤ 0 + maxActive := Nat.le_add_left ..
  refine ⟨fun hsize => ?_, fun hsize => ⟨fun name => ?_, fun negated body otherwise hlength => ?_⟩⟩
  · rw [evaluateBlock, run, topLevel, hb.outcome maxActive 0 (by omega) hlevels]
  · rw [evaluateBlock, run, topLevel, hb.define name (by omega) hlevels]
  · obtain ⟨htrue, hfail⟩ := hb.conditional negated body hlength (by omega) hlevels
    refine ⟨fun t ht => ?_, fun hkind => ?_⟩
    · simp only [evaluateBlock, run, topLevel, htrue t ht]
    · simp only [evaluateBlock, run, topLevel, hfail hkind]

/-- A list in an inlined block, behind a line break, in the second branch of `unless`.  It is bound
    as a list, and it is no condition. -/
theorem evaluate_wrapped_list :
    let v : Value := .list [.boolean true, .text "p"]
    let e : Engine := ⟨.default, ⟨[("x", v)], []⟩⟩
    let b : Block := [.element "unless" [[.text "true"], [.text "x"],
      [.element "inline" [[.text "\n  ", .element "" [[.text "x"]]]]]]]
    (e.environment.values.get? (bindingName [.text "x"]) = some v ∧ v.kind ≠ .deferred) ∧
      e.evaluateBlock b = (.ok (some v), e) ∧
      e.evaluateBlock [.element "define" [[.text "y"], b]] =
        (.ok none, ⟨.default, ⟨[("x", v), ("y", v)], []⟩⟩) ∧
      e.evaluateBlock [.element "if" [b, [.text "p"]]] =
        (.error (.error (.typeMismatch "if" ⟨.boolean, some .list⟩)), e) := by
  intro v e b
  have hv : e.environment.values.get? (bindingName [.text "x"]) = some v := rfl
  have hk : v.kind ≠ .deferred := by decide
  have hline : '\n' ∉ (Block.textContent [.text "x"]).toList := by decide
  obtain ⟨hvalue, hmore⟩ := evaluate_wrapped hv hk hline
    [.otherwise true [.text "x"], .inline, .before "\n  " (by decide)]
  obtain ⟨hdefine, htest⟩ := hmore (by decide)
  refine ⟨⟨hv, hk⟩, hvalue (by decide), hdefine [.text "y"], ?_⟩
  exact (htest false [.text "p"] [] (by decide)).2 (by decide)

end Engine

end BraceMarkup
