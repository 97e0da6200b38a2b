/-
  A text further down.

  Where a text begins decides the positions of its tokens and of its faults,
  and nothing else: so many lines further down, each of them stands so many
  lines further down.

  * `Position.down`, `Token.down`, `Scanner.down`, `LexError.down`: so many
    lines further down;
  * `Scanner.Step.down`, `Scanner.Fault.down`: the same steps and faults further
    down;
  * `Scanner.run_down`: **a run further down** is the same run.
-/
import BraceMarkup.Proofs.Token.Fault

namespace BraceMarkup

/-! ## Positions -/

/-- The position `k` lines further down. -/
def Position.down (p : Position) (k : Nat) : Position := ⟨p.line + k, p.column⟩

theorem Position.advance_down (p : Position) (k : Nat) (c : Char) :
    (p.down k).advance c = (p.advance c).down k := by
  by_cases hc : c = '\n' <;> simp [Position.advance, Position.down, hc, Nat.add_right_comm]

theorem Position.advanceList_down (p : Position) (k : Nat) (cs : List Char) :
    (p.down k).advanceList cs = (p.advanceList cs).down k := by
  induction cs generalizing p with
  | nil => rfl
  | cons c cs ih => rw [advanceList_cons, advance_down, ih, advanceList_cons]

/-! ## Tokens and faults -/

/-- The token `k` lines further down. -/
def Token.down (token : Token) (k : Nat) : Token := { token with position := token.position.down k }

/-- The open argument `k` lines further down. -/
def OpenArgument.down (a : OpenArgument) (k : Nat) : OpenArgument := ⟨a.depth, a.position.down k⟩

/-- The fault `k` lines further down. -/
def LexError.down (e : LexError) (k : Nat) : LexError := ⟨e.kind, e.position.down k⟩

theorem textToken_down (p : Position) (k : Nat) (pending : List Char) :
    textToken (p.down k) pending = (textToken p pending).map (·.down k) := by
  unfold textToken
  split <;> rfl

/-- A run of closing braces further down closes the same arguments. -/
theorem closeArguments_down (p : Position) (k count : Nat) (opened : List OpenArgument) :
    closeArguments (p.down k) count (opened.map (·.down k)) =
      ((closeArguments p count opened).1.map (·.down k), (closeArguments p count opened).2.1,
        (closeArguments p count opened).2.2.map (·.down k)) := by
  induction opened generalizing p count with
  | nil => rfl
  | cons a outer ih =>
    have hdepth : (a.down k).depth = a.depth := rfl
    rw [List.map_cons, closeArguments, closeArguments, hdepth]
    by_cases ha : a.depth ≤ count
    · rw [if_pos ha, if_pos ha]
      simp only [Position.advanceList_down, ih]
      rfl
    · rw [if_neg ha, if_neg ha]
      rfl

theorem closeArguments_eq_down {p : Position} {count left : Nat} {opened outer : List OpenArgument}
    {closed : List Token} (h : closeArguments p count opened = (closed, left, outer)) (k : Nat) :
    closeArguments (p.down k) count (opened.map (·.down k)) =
      (closed.map (·.down k), left, outer.map (·.down k)) := by
  rw [closeArguments_down, h]

/-! ## Scanners -/

namespace Scanner

variable (s : Scanner) (k n : Nat)

/-- The scanner of a text that begins `k` lines further down. -/
def down : Scanner :=
  ⟨s.rest, s.position.down k, s.pending, s.pendingPosition.down k, s.opened.map (·.down k)⟩

@[simp] theorem rest_down : (s.down k).rest = s.rest := rfl

@[simp] theorem position_down : (s.down k).position = s.position.down k := rfl

@[simp] theorem pendingPosition_down :
    (s.down k).pendingPosition = s.pendingPosition.down k := rfl

@[simp] theorem opened_down : (s.down k).opened = s.opened.map (·.down k) := rfl

@[simp] theorem depth_down : (s.down k).depth = s.depth := by
  unfold depth
  rw [opened_down]
  cases s.opened <;> rfl

theorem keep_down : (s.down k).keep n = (s.keep n).down k := by
  simp only [keep, down, Position.advanceList_down]

theorem skip_down : (s.down k).skip n = (s.skip n).down k := by
  simp only [skip, down, Position.advanceList_down]

theorem outside_down (opened : List OpenArgument) :
    (s.down k).outside n (opened.map (·.down k)) = (s.outside n opened).down k := by
  rw [outside, skip_down]
  rfl

theorem openArgument_down : (s.down k).openArgument n =
    ((s.openArgument n).1.down k, (s.openArgument n).2.down k) := by
  have hinside : (s.down k).outside n (⟨n, s.position.down k⟩ :: s.opened.map (·.down k)) =
      (s.outside n (⟨n, s.position⟩ :: s.opened)).down k :=
    outside_down s k n (⟨n, s.position⟩ :: s.opened)
  refine Prod.ext rfl ?_
  rw [openArgument_snd, openArgument_snd]
  simp only [position_down, opened_down, hinside, rest_down, skip_down]
  split <;> rfl

/-! ## Steps and runs -/

variable {s}

/-- The same step further down. -/
theorem Step.down {next : Scanner} {tokens : List Token} (h : s.Step tokens next) :
    (s.down k).Step (tokens.map (·.down k)) (next.down k) := by
  have hdepth := depth_down s k
  cases h with
  | char hs hh hb => exact keep_down s k 1 ▸ .char hs hh hb
  | hash hs hn hsp hb hlt => exact keep_down s k _ ▸ .hash hs hn hsp hb (hdepth ▸ hlt)
  | @element cs name spaces braces hs hn hsp hb h0 hle =>
    have hstep := Step.element (s := s.down k) hs hn hsp hb h0 (hdepth ▸ hle)
    rw [skip_down, openArgument_down] at hstep
    rw [List.map_append, ← textToken_down]
    exact hstep
  | short hs hc ho hlt =>
    exact keep_down s k _ ▸ .short hs hc (by simpa using ho) (hdepth ▸ hlt)
  | @close cs count closed opened hs hc ho hle hclosed hb =>
    have hstep := Step.close (s := s.down k) hs hc (by simpa using ho) (hdepth ▸ hle)
      (closeArguments_eq_down hclosed k)
    rw [outside_down, rest_down, depth_down] at hstep
    rw [List.map_append, ← textToken_down]
    exact hstep hb
  | @chain cs count closed opened braces hs hc ho hle hclosed hb h0 hle' =>
    have hstep := @Step.chain (s.down k) cs count _ _ braces hs hc (by simpa using ho)
      (hdepth ▸ hle) (closeArguments_eq_down hclosed k)
    rw [outside_down, rest_down, depth_down, openArgument_down] at hstep
    rw [List.map_append, List.map_append, ← textToken_down]
    exact hstep hb h0 hle'

/-- The same fault further down. -/
theorem Fault.down {e : LexError} (h : s.Fault e) : (s.down k).Fault (e.down k) := by
  cases h with
  | @unterminated a outer hs ho =>
    have ho' : (s.down k).opened = a.down k :: outer.map (·.down k) := by simp [ho]
    exact Fault.unterminated (s := s.down k) hs ho'
  | stray hs hc ho => exact Fault.stray (s := s.down k) hs hc (by simp [ho])
  | @excess cs count closed left opened hs hc ho hle hclosed hleft =>
    have hfault := Fault.excess (s := s.down k) hs hc (by simpa using ho)
      ((depth_down s k).symm ▸ hle) (closeArguments_eq_down hclosed k) hleft
    rw [position_down, Position.advanceList_down] at hfault
    exact hfault

/-- What a run yields, `k` lines further down. -/
def downRun : Except LexError (List Token) → Except LexError (List Token)
  | .error e => .error (e.down k)
  | .ok tokens => .ok (tokens.map (·.down k))

theorem downRun_zero (r : Except LexError (List Token)) : downRun 0 r = r := by
  cases r with
  | error e => rfl
  | ok tokens => exact congrArg Except.ok (List.map_id tokens)

theorem downRun_map (tokens : List Token) (r : Except LexError (List Token)) :
    downRun k (r.map (tokens ++ ·)) = (downRun k r).map (tokens.map (·.down k) ++ ·) := by
  cases r with
  | error e => rfl
  | ok later => exact congrArg Except.ok List.map_append

/-- **A run further down** is the same run, with its tokens or its fault further down. -/
theorem run_down (s : Scanner) : (s.down k).run = downRun k s.run := by
  induction s using Scanner.induction with
  | finish s hs ho =>
    rw [run_of_end hs ho, run_of_end (s := s.down k) hs (by simp [ho]), pendingPosition_down,
      textToken_down, downRun, List.map_append]
    rfl
  | fault s e h =>
    rw [run_of_fault h, run_of_fault (h.down k), downRun]
  | step s next tokens h ih =>
    rw [run_of_step h, run_of_step (h.down k), ih, downRun_map]

end Scanner

end BraceMarkup
