/-
  The sequence of tokens that a lexer hands out.

  A lexer is asked for one item after the other, and a text that is at fault
  has handed out tokens before its fault is found.  Either way the sequence
  ends with one item that says so: the end token, or the fault.

  * `Lexer.afterCalls`, `Lexer.item`: the lexer after some calls, and what the next
    call hands out;
  * `Lexer.Yields`: the items of all calls;
  * `Scanner.fill_eq`: what fills the queue, from its first step;
  * `Lexer.WellEnded`, `Lexer.wellEnded_ofString`: **the sequence of a text**:
    tokens, then one end token or one fault, then nothing.
-/
import BraceMarkup.Proofs.Token.Fault

namespace BraceMarkup

namespace Lexer

/-! ## Call after call -/

/-- The lexer after some calls. -/
def afterCalls (l : Lexer) : Nat → Lexer
  | 0 => l
  | n + 1 => (l.afterCalls n).next.2

/-- What is handed out behind the items of `n` earlier calls. -/
def item (l : Lexer) (n : Nat) : Option (Except LexError Token) := (l.afterCalls n).next.1

/-- The calls hand out these items, one after the other, and then nothing. -/
def Yields (l : Lexer) (items : List (Except LexError Token)) : Prop := ∀ n, l.item n = items[n]?

variable {l : Lexer} {items : List (Except LexError Token)}

/-- The first call in front of the others. -/
theorem afterCalls_succ (l : Lexer) (n : Nat) : l.afterCalls (n + 1) = l.next.2.afterCalls n := by
  induction n with
  | zero => rfl
  | succ n ih => rw [afterCalls, ih, afterCalls]

/-- A lexer at its end stays there. -/
theorem yields_nil : Yields ⟨[], none⟩ [] := by
  have hcalls : ∀ n, afterCalls ⟨[], none⟩ n = ⟨[], none⟩ := by
    intro n
    induction n with
    | zero => rfl
    | succ n ih => rw [afterCalls, ih]; rfl
  intro n
  rw [item, hcalls]
  rfl

theorem Yields.cons {x : Except LexError Token} (h : l.next.2.Yields items)
    (hx : l.next.1 = some x) : l.Yields (x :: items) := by
  intro n
  cases n with
  | zero => exact hx
  | succ n => rw [item, afterCalls_succ]; exact h n

/-- Lexers that agree on their next call agree on all of them. -/
theorem Yields.congr {other : Lexer} (h : other.Yields items) (hnext : l.next = other.next) :
    l.Yields items := by
  intro n
  rw [← h n]
  cases n with
  | zero => rw [item, item, afterCalls, afterCalls, hnext]
  | succ n => rw [item, item, afterCalls_succ, afterCalls_succ, hnext]

/-- The tokens in the queue are handed out first. -/
theorem Yields.queue {scanner : Option Scanner} (h : Yields ⟨[], scanner⟩ items)
    (tokens : List Token) : Yields ⟨tokens, scanner⟩ (tokens.map .ok ++ items) := by
  induction tokens with
  | nil => exact h
  | cons token tokens ih => exact ih.cons (l := ⟨token :: tokens, scanner⟩) rfl

end Lexer

/-! ## Filling the queue -/

namespace Scanner

variable {s next : Scanner} {tokens : List Token} {e : LexError}

/-- The step that is taken first. -/
theorem fill_eq (s : Scanner) : s.fill =
    match s.step with
    | .error e => .error e
    | .ok (tokens, none) => .ok (tokens, none)
    | .ok ([], some next) => next.fill
    | .ok (token :: tokens, some next) => .ok (token :: tokens, some next) := by
  rw [fill]
  split <;> next h => rw [h]

theorem fill_of_fault (h : s.Fault e) : s.fill = .error e := by
  rw [fill_eq, step_eq_error_iff.2 h]

theorem fill_of_end (hs : s.rest = []) (ho : s.opened = []) :
    s.fill =
      .ok (textToken s.pendingPosition s.pending ++ [⟨.endOfInput, "", s.position⟩], none) := by
  rw [fill_eq, step_of_nil hs, finish, ho]
  rfl

/-- A step that completes nothing. -/
theorem fill_of_step_nil (h : s.Step [] next) : s.fill = next.fill := by
  rw [fill_eq, step_eq_ok_iff.2 h]

theorem fill_of_step {token : Token} (h : s.Step (token :: tokens) next) :
    s.fill = .ok (token :: tokens, some next) := by
  rw [fill_eq, step_eq_ok_iff.2 h]

end Scanner

/-! ## The items of a text -/

/-- The calls hand out tokens, then the end token or a fault, and then nothing.  These are the
    tokens, or the fault, of the run. -/
structure Lexer.WellEnded (l : Lexer) (run : Except LexError (List Token)) (tokens : List Token)
    (last : Except LexError Token) : Prop where
  yields : l.Yields (tokens.map .ok ++ [last])
  kinds : ∀ token ∈ tokens, token.kind ≠ .endOfInput
  last : (∃ token, last = .ok token ∧ token.kind = .endOfInput ∧ run = .ok (tokens ++ [token])) ∨
    ∃ e, last = .error e ∧ run = .error e

namespace Lexer

variable {s next : Scanner} {tokens : List Token} {last : Except LexError Token}

/-- Tokens that a step completes, in front of the others. -/
theorem WellEnded.step {early : List Token} (hstep : s.Step early next)
    (h : WellEnded ⟨[], some next⟩ next.run tokens last) :
    WellEnded ⟨[], some s⟩ s.run (early ++ tokens) last := by
  refine ⟨?_, ?_, ?_⟩
  · rw [List.map_append, List.append_assoc]
    cases early with
    | nil =>
      refine h.yields.congr ?_
      simp only [Lexer.next, Scanner.fill_of_step_nil hstep]
    | cons first early =>
      refine Yields.congr (h.yields.queue (first :: early)) ?_
      simp only [Lexer.next, Scanner.fill_of_step hstep]
  · intro token ht
    rcases List.mem_append.1 ht with ht | ht
    · exact hstep.kind_ne ht
    · exact h.kinds token ht
  · rw [Scanner.run_of_step hstep]
    rcases h.last with ⟨token, hlast, hk, hrun⟩ | ⟨e, hlast, hrun⟩
    · exact .inl ⟨token, hlast, hk, by rw [hrun, List.append_assoc]; rfl⟩
    · exact .inr ⟨e, hlast, by rw [hrun]; rfl⟩

/-- **The sequence of a scanner is well ended.** -/
theorem exists_wellEnded (s : Scanner) :
    ∃ tokens last, WellEnded ⟨[], some s⟩ s.run tokens last := by
  induction s using Scanner.induction with
  | finish s hs ho =>
    refine ⟨textToken s.pendingPosition s.pending, _, ?_, ?_,
      .inl ⟨_, rfl, rfl, Scanner.run_of_end hs ho⟩⟩
    · have hqueue := yields_nil.queue
        (textToken s.pendingPosition s.pending ++ [⟨.endOfInput, "", s.position⟩])
      rw [List.map_append, List.append_nil] at hqueue
      refine hqueue.congr ?_
      cases ht : textToken s.pendingPosition s.pending <;>
        simp [Lexer.next, Scanner.fill_of_end hs ho, ht]
    · intro token ht
      simp [kind_textToken ht]
  | fault s e h =>
    refine ⟨[], .error e, ?_, fun _ ht => absurd ht List.not_mem_nil,
      .inr ⟨e, rfl, Scanner.run_of_fault h⟩⟩
    have hnext : Lexer.next ⟨[], some s⟩ = (some (.error e), ⟨[], none⟩) := by
      simp only [Lexer.next, Scanner.fill_of_fault h]
    exact Yields.cons (hnext ▸ yields_nil) (hnext ▸ rfl)
  | step s next early hstep ih =>
    obtain ⟨tokens, last, h⟩ := ih
    exact ⟨early ++ tokens, last, h.step hstep⟩

/-- **The sequence of a text**: its tokens and the end token, or some tokens and its fault, and then
    nothing. -/
theorem wellEnded_ofString (source : String) :
    ∃ tokens last, (ofString source).WellEnded (tokenize source) tokens last :=
  exists_wellEnded _

end Lexer

end BraceMarkup
