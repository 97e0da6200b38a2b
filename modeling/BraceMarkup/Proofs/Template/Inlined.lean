/-
  Inlined blocks.

  `#inline` takes the line breaks out of all texts of its block, at any depth,
  and then evaluates what is left.  So it changes the names, conditions and
  separators in the block, and the templates that the block binds, just as the
  text that is printed.  Taking out line breaks a second time changes nothing,
  and where there are none it changes nothing at all.  An inlined block then
  differs from one that is not only in the one element more that is active.

  * `level_inline_mapText`: an inlined block without its line breaks;
  * `Engine.matches_inline`: up to the limit, an inlined block is evaluated like
    the block without its line breaks;
  * `Engine.inline_inline`: **inlining twice is inlining once**, and a block in
    one line is evaluated as it is.
-/
import BraceMarkup.Proofs.Block.Arguments
import BraceMarkup.Proofs.Template.Inheritance
import BraceMarkup.Proofs.Template.Session

namespace BraceMarkup

open Evaluation

/-- An inlined block does not depend on the line breaks in it, at any level. -/
theorem level_inline_mapText (c : Config) (n depth : Nat) (b : Block) :
    (level c (directive c) n depth).block [.element "inline" [b.mapText Text.removeBreaks]] =
      (level c (directive c) n depth).block [.element "inline" [b]] := by
  cases n with
  | zero =>
    have hnone : ∀ b, (level c (directive c) 0 depth).block [.element "inline" [b]] =
        whileActive "inline" (throw .endless) := by
      intro b
      cases depth <;> exact evaluateNodes_element ..
    rw [hnone, hnone]
  | succ n =>
    rw [level_element, level_element, directive_inline, directive_inline,
      Block.mapText_mapText Text.removeBreaks_removeBreaks]
    rfl

namespace Engine

/-- Up to the limit of active elements, an inlined block is evaluated as the session evaluates the
    block without its line breaks, at any level that suffices. -/
theorem matches_inline (e : Engine) {n a : Nat} (hn : maxActive ≤ a + n) (b : Block) :
    ((level e.config (directive e.config) n maxPrintDepth).block
      [.element "inline" [b]]).Matches a e (e.evaluateBlock (b.mapText Text.removeBreaks)) := by
  by_cases ha : maxActive ≤ a
  · exact .inl ⟨_, _, outcome_element_limit ha, EvalError.isLimit_recursionLimit _⟩
  obtain ⟨m, rfl⟩ : ∃ m, n = m + 1 := Nat.exists_eq_add_one.2 (by omega)
  have hm : maxActive ≤ a + 1 + m := by omega
  rw [Matches, outcome_element (Nat.lt_of_not_le ha), directive_inline]
  rcases e.matches_block hm (b.mapText Text.removeBreaks) with ⟨f, s, hx, hf⟩ | ⟨hx, hconfig⟩
  · rw [hx]
    exact .inl ⟨f, _, rfl, hf⟩
  · rw [hx]
    exact .inr ⟨rfl, hconfig⟩

/-- The evaluation of a block does not come to the limit of active elements, in the document or in a
    module. -/
def WithinLimit (e : Engine) (b : Block) : Prop :=
  ∀ fault, (e.evaluateBlock b).1 = .error (.error fault) → ¬ fault.IsLimit

/-- Within the limit, an inlined block is evaluated like the block without its line breaks. -/
theorem evaluateBlock_inline {e : Engine} {b : Block}
    (hlimit : e.WithinLimit [.element "inline" [b]]) :
    e.evaluateBlock [.element "inline" [b]] = e.evaluateBlock (b.mapText Text.removeBreaks) := by
  have hmatches := e.matches_inline (n := maxActive) (a := 0) (Nat.le_add_left ..) b
  generalize e.evaluateBlock (b.mapText Text.removeBreaks) = r at hmatches ⊢
  rcases hmatches with ⟨f, s, hx, hf⟩ | ⟨hx, hconfig⟩
  · have hfails : (e.evaluateBlock [.element "inline" [b]]).1 = .error f := congrArg Prod.fst hx
    cases f with
    | error fault => exact absurd hf (hlimit fault hfails)
    | endless => exact hf.elim
  · obtain ⟨result, ⟨config, environment⟩⟩ := r
    obtain rfl : config = e.config := hconfig
    rw [evaluateBlock, run, topLevel, hx]

/-- **Inlining twice is inlining once**, and a block that stands in one line is evaluated as it is.
    As long as the limit of active elements is not reached, the value or the fault is the same, and
    so are the text and what is bound behind it, be it templates of the block. -/
theorem inline_inline (e : Engine) (b : Block) :
    let inlined (b : Block) : Block := [.element "inline" [b]]
    (e.WithinLimit (inlined (inlined b)) →
      e.evaluateBlock (inlined (inlined b)) = e.evaluateBlock (inlined b) ∧
        e.evaluate (inlined (inlined b)) = e.evaluate (inlined b)) ∧
    ((∀ s, .text s ∈ b.preorder → '\n' ∉ s.toList) → e.WithinLimit (inlined b) →
      e.evaluateBlock (inlined b) = e.evaluateBlock b ∧
        e.evaluate (inlined b) = e.evaluate b) := by
  intro inlined
  constructor
  · intro hlimit
    have heq : e.evaluateBlock (inlined (inlined b)) = e.evaluateBlock (inlined b) := by
      calc e.evaluateBlock (inlined (inlined b))
          = e.evaluateBlock (inlined (b.mapText Text.removeBreaks)) := evaluateBlock_inline hlimit
        _ = e.evaluateBlock (inlined b) :=
          congrArg e.run (level_inline_mapText e.config maxActive maxPrintDepth b)
    exact ⟨heq, evaluate_congr heq⟩
  · intro hline hlimit
    have hsame : b.mapText Text.removeBreaks = b :=
      Block.mapText_eq_self b fun s hs => Text.removeBreaks_of_not_mem (hline s hs)
    have heq : e.evaluateBlock (inlined b) = e.evaluateBlock b :=
      (evaluateBlock_inline hlimit).trans (congrArg e.evaluateBlock hsame)
    exact ⟨heq, evaluate_congr heq⟩

/-- A template that is bound in an inlined block loses its line breaks, and a block in one line is
    evaluated with what it binds. -/
theorem inline_inline_template :
    let e : Engine := .ofConfig .default
    let inlined (b : Block) : Block := [.element "inline" [b]]
    let lines : Block := [.element "template" [[.text "t"], [.text "a\n  b"]], .text "x: \n",
      .element "" [[.text "\nt"]]]
    let line : Block := [.element "define" [[.text "x"], [.text "true"]],
      .element "if" [[.text "x"], [.text "p"]]]
    (e.WithinLimit (inlined (inlined lines)) ∧
      (∀ s, .text s ∈ Block.preorder line → '\n' ∉ s.toList) ∧ e.WithinLimit (inlined line)) ∧
      (e.evaluate (inlined (inlined lines))).1 = .ok "x:ab" ∧
      (e.evaluateBlock (inlined (inlined lines))).2.environment.templates = [("t", [.text "ab"])] ∧
      e.evaluateBlock (inlined line) = e.evaluateBlock line := by
  intro e inlined lines line
  have hwithin : ∀ b : Block, (e.evaluateBlock b).1.isOk = true → e.WithinLimit b := by
    intro b hok fault hfault
    rw [hfault] at hok
    cases hok
  have hlines : e.WithinLimit (inlined (inlined lines)) := hwithin _ (by decide +kernel)
  have hline : ∀ s, .text s ∈ Block.preorder line → '\n' ∉ s.toList := by
    simp [line, Block.preorder, Node.preorder, Node.preorderArguments]
  have hlimit : e.WithinLimit (inlined line) := hwithin _ (by decide +kernel)
  obtain ⟨htwice, htext⟩ := (inline_inline e lines).1 hlines
  refine ⟨⟨hlines, hline, hlimit⟩, ?_, ?_, ((inline_inline e line).2 hline hlimit).1⟩
  · rw [htext]
    decide +kernel
  · rw [htwice]
    decide +kernel

end Engine

end BraceMarkup
