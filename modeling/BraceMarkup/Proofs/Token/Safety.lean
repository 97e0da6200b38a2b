/-
  Safety of the scan.

  A lexer by offsets checks all its reads and differences.  Call by call it hands
  out the same items as the lexer that keeps what is left of the text, which has
  nothing to check; so no check ever fails, whatever the text and however many
  calls have been made, and the sequence ends as that of the other lexer does.

  * `OffsetLexer.Matches`: the two lexers have the same tokens queued, and stand
    at the same place unless both are done;
  * `OffsetLexer.Follows.scan`, `OffsetLexer.Matches.next`: the scan that fills
    the queue, and one call;
  * `OffsetLexer.matches_afterCalls`: any number of calls;
  * `OffsetLexer.safe_wellEnded`: **the scan is safe, and its sequence of items
    is well ended**.
-/
import BraceMarkup.Proofs.Token.OffsetSteps
import BraceMarkup.Proofs.Token.Sequence

namespace BraceMarkup

namespace OffsetLexer

variable {c d : OffsetLexer} {s : Scanner} {l : Lexer}

/-! ## Two lexers -/

/-- The two lexers have the same tokens queued, and stand at the same place unless both are done. -/
inductive Matches (c : OffsetLexer) (l : Lexer) : Prop
  | reading {s : Scanner} : l.scanner = some s → l.queue = c.queue → c.Follows s →
      c.done = false → Matches c l
  | done : l.scanner = none → l.queue = c.queue → c.Safe → c.done = true → Matches c l

theorem Safe.requeue (h : c.Safe) (queue : List Token) (done : Bool) :
    { c with queue, done }.Safe := ⟨h.textStart_le, h.pos_le, h.bottom, h.depths⟩

namespace Matches

theorem safe (h : c.Matches l) : c.Safe := by
  cases h with
  | reading _ _ hfollows _ => exact hfollows.safe
  | done _ _ hsafe _ => exact hsafe

theorem queue (h : c.Matches l) : l.queue = c.queue := by
  cases h with
  | reading _ hqueue _ _ => exact hqueue
  | done _ hqueue _ _ => exact hqueue

/-- Only the queues change. -/
theorem requeue (h : c.Matches l) (queue : List Token) :
    { c with queue }.Matches { l with queue } := by
  cases h with
  | reading hscanner _ hfollows hdone =>
    exact .reading hscanner rfl (hfollows.requeue queue c.done) hdone
  | done hscanner _ hsafe hdone => exact .done hscanner rfl (hsafe.requeue queue c.done) hdone

theorem ofString (source : String) : (OffsetLexer.ofString source).Matches (.ofString source) :=
  .reading rfl rfl (.ofString source) rfl

end Matches

/-- A pass from where the lexer is safe. -/
theorem Safe.pass (h : c.Safe) : ∃ d result, c.pass = some (d, result) ∧ d.Safe := by
  obtain ⟨s, hfollows⟩ := h.exists_follows
  obtain ⟨d, result, hpass, hpasses⟩ := hfollows.pass
  refine ⟨d, result, hpass, ?_⟩
  generalize s.step = step at hpasses
  cases hpasses with
  | goesOn hreach => exact hreach.follows.safe
  | ends hsafe => exact hsafe
  | fails hsafe => exact hsafe

/-! ## Filling the queue -/

/-- What a scan makes of a filled queue. -/
inductive Scans : Except LexError (List Token × Option Scanner) → OffsetLexer → Option LexError →
    Prop
  | fills {tokens : List Token} {scanner : Option Scanner} {d : OffsetLexer} :
      d.Matches ⟨tokens, scanner⟩ → Scans (.ok (tokens, scanner)) d none
  | fails {e : LexError} {d : OffsetLexer} : d.Safe → Scans (.error e) d (some e)

theorem scan_of_queue (h : c.queue ≠ []) : c.scan = some (c, none) := by
  rw [scan, if_neg (by simpa using h)]

theorem scan_of_empty (h : c.queue = []) : c.scan =
    match c.pass with
    | none => none
    | some (after, .goesOn) => after.scan
    | some (after, .ends) => some (after, none)
    | some (after, .fails e) => some (after, some e) := by
  rw [scan, if_pos (by simpa using h)]
  split <;> next h => rw [h]

/-- **The scan fills the queue**, or finds the fault, as the scanner does. -/
theorem Follows.scan (h : c.Follows s) (hqueue : c.queue = []) (hdone : c.done = false) :
    ∃ d fault, c.scan = some (d, fault) ∧ Scans s.fill d fault := by
  fun_induction Scanner.fill s generalizing c with
  | case1 s e hstep =>
    obtain ⟨d, _, hpass, hpasses⟩ := hstep ▸ h.pass
    cases hpasses with
    | fails hsafe => exact ⟨d, some e, by rw [scan_of_empty hqueue, hpass], .fails hsafe⟩
  | case2 s tokens hstep =>
    obtain ⟨d, _, hpass, hpasses⟩ := hstep ▸ h.pass
    cases hpasses with
    | ends hsafe htokens hd =>
      rw [hqueue, List.nil_append] at htokens
      exact ⟨d, none, by rw [scan_of_empty hqueue, hpass], .fills (.done rfl htokens.symm hsafe hd)⟩
  | case3 s next hstep ih =>
    obtain ⟨d, _, hpass, hpasses⟩ := hstep ▸ h.pass
    cases hpasses with
    | goesOn hreach =>
      have hempty : d.queue = [] := by rw [hreach.queue, hqueue, List.nil_append]
      obtain ⟨after, fault, hscan, hscans⟩ := ih hreach.follows hempty (hreach.done.trans hdone)
      exact ⟨after, fault, by rw [scan_of_empty hqueue, hpass]; exact hscan, hscans⟩
  | case4 s token tokens next hstep =>
    obtain ⟨d, _, hpass, hpasses⟩ := hstep ▸ h.pass
    cases hpasses with
    | goesOn hreach =>
      have htokens : d.queue = token :: tokens := by rw [hreach.queue, hqueue, List.nil_append]
      have hscan : d.scan = some (d, none) := scan_of_queue (htokens ▸ List.cons_ne_nil _ _)
      exact ⟨d, none, by rw [scan_of_empty hqueue, hpass]; exact hscan,
        .fills (.reading rfl htokens.symm hreach.follows (hreach.done.trans hdone))⟩

/-- The end of the text completes the end token. -/
theorem queue_ne_nil_of_finish (h : c.finish = some (d, none)) : d.queue ≠ [] := by
  unfold OffsetLexer.finish at h
  split at h
  · cases h
  · obtain ⟨flushed, -, h⟩ := Option.bind_eq_some_iff.1 h
    cases h
    simp [push]

theorem queue_ne_nil_of_pass (h : c.pass = some (d, .ends)) : d.queue ≠ [] := by
  unfold OffsetLexer.pass at h
  split at h
  · obtain ⟨⟨after, fault⟩, hfinish, h⟩ := Option.map_eq_some_iff.1 h
    cases fault with
    | some e => cases h
    | none =>
      cases h
      exact queue_ne_nil_of_finish hfinish
  · obtain ⟨after, -, h⟩ := Option.map_eq_some_iff.1 h
    cases h
  · obtain ⟨⟨after, fault⟩, -, h⟩ := Option.map_eq_some_iff.1 h
    cases fault <;> cases h
  · cases h

/-- **A scan without a fault leaves a token in the queue.** -/
theorem queue_ne_nil_of_scan (h : c.scan = some (d, none)) : d.queue ≠ [] := by
  fun_induction OffsetLexer.scan c with
  | case1 => cases h
  | case2 c _ after _ ih => exact ih h
  | case3 c _ after hpass =>
    cases h
    exact queue_ne_nil_of_pass hpass
  | case4 => cases h
  | case5 c hqueue =>
    cases h
    simpa using hqueue

/-! ## Calls -/

/-- **One call** hands out the same item, and fails none of the checks. -/
theorem Matches.next (h : c.Matches l) :
    ∃ d, c.next = some (l.next.1, d) ∧ d.Matches l.next.2 := by
  obtain ⟨queue, scanner⟩ := l
  have hqueue : queue = c.queue := h.queue
  cases queue with
  | cons token rest =>
    refine ⟨{ c with queue := rest }, ?_, h.requeue rest⟩
    simp only [OffsetLexer.next, Lexer.next, ← hqueue]
  | nil =>
    rw [OffsetLexer.next, ← hqueue]
    cases h with
    | done hscanner _ hsafe hdone =>
      obtain rfl : scanner = none := hscanner
      exact ⟨c, if_pos hdone, .done rfl hqueue hsafe hdone⟩
    | @reading s hscanner _ hfollows hdone =>
      obtain rfl : scanner = some s := hscanner
      obtain ⟨d, fault, hscan, hscans⟩ := hfollows.scan hqueue.symm hdone
      simp only [hdone, Bool.false_eq_true, if_false, hscan, Option.bind_eq_bind, Option.bind_some,
        Lexer.next]
      generalize s.fill = filled at hscans
      cases hscans with
      | @fills tokens scanner _ hd =>
        have htokens : tokens = d.queue := hd.queue
        rw [← htokens]
        cases tokens with
        | nil => exact ⟨d, rfl, hd⟩
        | cons token rest => exact ⟨_, rfl, hd.requeue rest⟩
      | fails hsafe =>
        -- the tokens of the pass that fails are not handed out
        exact ⟨_, rfl, .done rfl rfl (hsafe.requeue [] true) rfl⟩

/-- **Any number of calls.** -/
theorem matches_afterCalls (source : String) (n : Nat) :
    ∃ c, (ofString source).afterCalls n = some c ∧
      c.Matches ((Lexer.ofString source).afterCalls n) := by
  induction n with
  | zero => exact ⟨_, rfl, .ofString source⟩
  | succ n ih =>
    obtain ⟨c, hc, hmatches⟩ := ih
    obtain ⟨d, hd, hnext⟩ := hmatches.next
    exact ⟨d, by rw [afterCalls, hc]; simp [hd], hnext⟩

/-- **The scan is safe, and its sequence of items is well ended.**  After any number of calls the
    offsets are in order and in the text, and the stack is in order; none of the checks has failed,
    nor does one fail in the next call.  From wherever that holds, a pass fails none of the checks,
    leads to where it holds again, and moves the cursor on unless it ends the scan; and a scan that
    finds no fault leaves a token in the queue.  So the calls hand out tokens, then one end token or
    one fault, and then nothing, as those of the lexer that keeps what is left. -/
theorem safe_wellEnded (source : String) :
    (∀ n, ∃ c, (ofString source).afterCalls n = some c ∧ c.chars = sourceChars source ∧ c.Safe) ∧
    (∀ n, (ofString source).item n = some ((Lexer.ofString source).item n)) ∧
    (∀ c : OffsetLexer, c.Safe → ∃ d result, c.pass = some (d, result) ∧ d.Safe ∧
      (result = .goesOn → c.pos < d.pos)) ∧
    (∀ c d : OffsetLexer, c.scan = some (d, none) → d.queue ≠ []) ∧
    ∃ tokens last, (Lexer.ofString source).WellEnded (tokenize source) tokens last := by
  refine ⟨?_, ?_, ?_, fun c d h => queue_ne_nil_of_scan h, Lexer.wellEnded_ofString source⟩
  · intro n
    obtain ⟨c, hc, hmatches⟩ := matches_afterCalls source n
    exact ⟨c, hc, chars_afterCalls hc, hmatches.safe⟩
  · intro n
    obtain ⟨c, hc, hmatches⟩ := matches_afterCalls source n
    obtain ⟨d, hd, -⟩ := hmatches.next
    rw [item, hc]
    simp only [Option.bind_eq_bind, Option.bind_some, hd]
    rfl
  · intro c hc
    obtain ⟨d, result, hpass, hd⟩ := hc.pass
    exact ⟨d, result, hpass, hd, (pass_onward hpass).2⟩

/-- A closing run that closes an argument and has a brace left: the fault is the third item and the
    last. -/
theorem safe_wellEnded_excess :
    let source := "#a\x7b\x7d\x7d"
    (∃ c, (ofString source).afterCalls 3 = some c ∧ c.chars = sourceChars source ∧ c.Safe) ∧
      (ofString source).item 2 = some (some (.error ⟨.tooManyClosingBraces 1, ⟨1, 5⟩⟩)) ∧
      (ofString source).item 3 = some none ∧
      ∃ d result, (ofString source).pass = some (d, result) ∧ d.Safe ∧
        (result = .goesOn → 0 < d.pos) := by
  intro source
  obtain ⟨hsafe, hitem, hpass, -, -⟩ := safe_wellEnded source
  have hfault : (Lexer.ofString source).item 2 =
      some (.error ⟨.tooManyClosingBraces 1, ⟨1, 5⟩⟩) := by decide +kernel
  have hnone : (Lexer.ofString source).item 3 = none := by decide +kernel
  have hstart := hpass (ofString source) (Follows.ofString source).safe
  exact ⟨hsafe 3, (hitem 2).trans (congrArg some hfault), (hitem 3).trans (congrArg some hnone),
    hstart⟩

end OffsetLexer

end BraceMarkup
