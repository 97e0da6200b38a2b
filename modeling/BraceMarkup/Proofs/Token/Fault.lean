/-
  The faults of the scanner as rules.

  Beside the steps that read on, a scanner can end the text, or find a fault:
  an argument that is still open at the end, or closing braces that close no
  argument.

  * `Scanner.Fault`: the faults that a scanner finds, one rule for each;
  * `Scanner.step_eq_error_iff`: these are the faults of `Scanner.step`;
  * `Scanner.induction`: what holds of a scanner at the end of the text, of one
    that finds a fault, and of one that reads on if it holds one step later,
    holds of every scanner.
-/
import BraceMarkup.Proofs.Token.Step

namespace BraceMarkup

namespace Scanner

/-- The faults that a scanner finds where it stands. -/
inductive Fault (s : Scanner) : LexError → Prop
  /-- The text ends inside of an argument. -/
  | unterminated {a outer} : s.rest = [] → s.opened = a :: outer →
      Fault s ⟨.unterminatedArgument a.depth, a.position⟩
  /-- A closing run stands outside of all arguments. -/
  | stray {cs count} : s.rest = '}' :: cs → count = runLength '}' s.rest → s.opened = [] →
      Fault s ⟨.tooManyClosingBraces count, s.position⟩
  /-- A closing run closes arguments and has braces left. -/
  | excess {cs count closed left opened} : s.rest = '}' :: cs → count = runLength '}' s.rest →
      s.opened ≠ [] → s.depth ≤ count →
      closeArguments s.position count s.opened = (closed, left, opened) → 0 < left →
      Fault s ⟨.tooManyClosingBraces left,
        s.position.advanceList (List.replicate (count - left) '}')⟩

variable {s : Scanner} {e : LexError}

theorem step_of_nil (hs : s.rest = []) : s.step = s.finish.map fun tokens => (tokens, none) := by
  simp only [step, hs]
  cases s.finish <;> rfl

/-- The closing braces at the front of the rest are at fault. -/
theorem fault_of_closing {cs : List Char} (hs : s.rest = '}' :: cs) (h : s.closing = .error e) :
    s.Fault e := by
  simp only [closing] at h
  split at h
  · next hopened =>
    cases h
    exact .stray hs rfl (List.isEmpty_iff.1 hopened)
  next hopened =>
  have hopened : s.opened ≠ [] := by simpa using hopened
  split at h
  · cases h
  next hle =>
  split at h
  · next hleft =>
    cases h
    exact .excess hs rfl hopened (Nat.not_lt.1 hle) rfl hleft
  · split at h <;> cases h

/-- **The rules are the faults.** -/
theorem step_eq_error_iff : s.step = .error e ↔ s.Fault e := by
  constructor
  · intro h
    cases hs : s.rest with
    | nil =>
      rw [step_of_nil hs] at h
      cases ho : s.opened with
      | nil => simp [finish, ho, Except.map] at h
      | cons a outer =>
        simp only [finish, ho, Except.map, Except.error.injEq] at h
        exact h ▸ .unterminated hs ho
    | cons c cs =>
      by_cases hh : c = '#'
      · subst hh
        rw [step_of_hash hs] at h
        cases h
      by_cases hb : c = '}'
      · subst hb
        rw [step_of_brace hs] at h
        cases hc : s.closing with
        | error e' =>
          rw [hc] at h
          cases h
          exact fault_of_closing hs hc
        | ok r =>
          rw [hc] at h
          cases h
      · rw [step_of_char hs hh hb] at h
        cases h
  · intro h
    cases h with
    | unterminated hs ho => simp [step_of_nil hs, finish, ho, Except.map]
    | stray hs hc ho =>
      subst hc
      simp [step_of_brace hs, closing, ho, Except.map]
    | excess hs hc hopened hle hclosed hleft =>
      subst hc
      have hopened : s.opened.isEmpty = false := by simpa using hopened
      simp only [step_of_brace hs, closing, hopened, Bool.false_eq_true, if_false,
        if_neg (Nat.not_lt.2 hle), hclosed, if_pos hleft]
      rfl

/-! ## Runs -/

theorem run_of_fault (h : s.Fault e) : s.run = .error e := by
  have hstep := step_eq_error_iff.2 h
  rw [run]
  split
  · next h' => rw [hstep] at h'; cases h'; rfl
  · next h' => rw [hstep] at h'; cases h'
  · next h' => rw [hstep] at h'; cases h'

theorem run_of_end (hs : s.rest = []) (ho : s.opened = []) :
    s.run = .ok (textToken s.pendingPosition s.pending ++ [⟨.endOfInput, "", s.position⟩]) := by
  rw [run_of_nil hs, finish, ho]

/-- **Induction on a scanner**: what holds at the end of a text and where a fault is found, and of a
    scanner that reads on if it holds of the scanner one step later, holds of every scanner. -/
theorem induction {motive : Scanner → Prop}
    (finish : ∀ s : Scanner, s.rest = [] → s.opened = [] → motive s)
    (fault : ∀ (s : Scanner) (e : LexError), s.Fault e → motive s)
    (step : ∀ (s next : Scanner) (tokens : List Token), s.Step tokens next → motive next →
      motive s) (s : Scanner) : motive s := by
  fun_induction run s with
  | case1 s e hs => exact fault s e (step_eq_error_iff.1 hs)
  | case2 s tokens hs =>
    cases hr : s.rest with
    | cons c cs => exact absurd hs (step_ne_end hr)
    | nil =>
      cases ho : s.opened with
      | nil => exact finish s hr ho
      | cons a outer => exact fault s _ (.unterminated hr ho)
  | case3 s tokens next hs ih => exact step s next tokens (step_eq_ok_iff.1 hs) ih

end Scanner

end BraceMarkup
