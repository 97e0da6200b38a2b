/-
  The steps of the scanner as rules.

  * `Scanner.Step`: what a step that reads on can do, one rule for each thing
    that may stand at the front of the rest;
  * `Scanner.step_eq_ok_iff`: these are the steps of `Scanner.step`;
  * `Scanner.run_of_step`, `Scanner.run_induction`: a run is its first step and
    the run of what is left, so that what holds at the end of a text and is
    carried back by every rule holds of all runs;
  * `Closed`: the arguments that a run of closing braces closes exactly;
  * `Scanner.run_eq_append`: the last token of a run is its only end token.
-/
import BraceMarkup.Token.Scanner

namespace BraceMarkup

/-! ## Closing runs -/

/-- A run of `count` closing braces at `position` closes the first of some open arguments, and
    leaves the others: one token for each of them, as long as the run that opened it. -/
inductive Closed : Position → Nat → List OpenArgument → List Token → List OpenArgument → Prop
  | done {p opened} : Closed p 0 opened [] opened
  | next {p count a outer tokens left} :
      Closed (p.advanceList (List.replicate a.depth '}')) count outer tokens left →
      Closed p (a.depth + count) (a :: outer)
        (⟨.argumentClose, String.ofList (List.replicate a.depth '}'), p⟩ :: tokens) left

theorem Closed.of_closeArguments {p : Position} {count : Nat} {opened left : List OpenArgument}
    {tokens : List Token} (h : closeArguments p count opened = (tokens, 0, left)) :
    Closed p count opened tokens left := by
  induction opened generalizing p count tokens with
  | nil =>
    simp only [closeArguments, Prod.mk.injEq] at h
    obtain ⟨rfl, rfl, rfl⟩ := h
    exact .done
  | cons a outer ih =>
    simp only [closeArguments] at h
    split at h
    · next hle =>
      simp only [Prod.mk.injEq] at h
      obtain ⟨rfl, h0, rfl⟩ := h
      have := Closed.next (a := a) (ih (Prod.ext rfl (Prod.ext h0 rfl)))
      rwa [Nat.add_sub_cancel' hle] at this
    · simp only [Prod.mk.injEq] at h
      obtain ⟨rfl, rfl, rfl⟩ := h
      exact .done

theorem Closed.subset {p : Position} {count : Nat} {opened left : List OpenArgument}
    {tokens : List Token} (h : Closed p count opened tokens left) : left ⊆ opened := by
  induction h with
  | done => exact List.Subset.refl _
  | next _ ih => exact List.subset_cons_of_subset _ ih

/-- The run closes the arguments one after the other, provided that every argument was opened by
    some braces. -/
theorem Closed.closeArguments_eq {p : Position} {count : Nat} {opened left : List OpenArgument}
    {tokens : List Token} (h : Closed p count opened tokens left)
    (hpos : ∀ a ∈ opened, 0 < a.depth) : closeArguments p count opened = (tokens, 0, left) := by
  induction h with
  | @done p opened =>
    cases opened with
    | nil => rfl
    | cons a outer =>
      have := hpos a (by simp)
      rw [closeArguments, if_neg (by omega)]
  | @next p count a outer tokens left _ ih =>
    have hle : a.depth ≤ a.depth + count := Nat.le_add_right _ _
    rw [closeArguments, if_pos hle, Nat.add_sub_cancel_left]
    simp only [ih fun b hb => hpos b (List.mem_cons_of_mem _ hb)]

/-! ## Steps -/

/-- The length of a name at the front of a list, with the `#` in front of it. -/
def nameLength (cs : List Char) : Nat := 1 + (cs.tail.takeWhile isNameChar).length

/-- A name with the `#` in front of it. -/
theorem take_nameLength (cs : List Char) :
    ('#' :: cs).take (nameLength ('#' :: cs)) = '#' :: cs.takeWhile isNameChar := by
  rw [nameLength, Nat.add_comm, List.take_succ_cons, List.tail_cons,
    ← List.prefix_iff_eq_take.1 (List.takeWhile_prefix isNameChar)]

/-- What is left behind a closing run, with the arguments that stay open. -/
def Scanner.outside (s : Scanner) (count : Nat) (opened : List OpenArgument) : Scanner :=
  { s.skip count with opened }

/-- The steps that read on. -/
inductive Scanner.Step (s : Scanner) : List Token → Scanner → Prop
  /-- Any character but `#` and `}` is text. -/
  | char {c cs} : s.rest = c :: cs → c ≠ '#' → c ≠ '}' → Step s [] (s.keep 1)
  /-- A name without a run of braces that is long enough is text, and so are the spaces behind
      it. -/
  | hash {cs name spaces braces} : s.rest = '#' :: cs → name = nameLength s.rest →
      spaces = runLength ' ' (s.rest.drop name) →
      braces = runLength '{' (s.rest.drop (name + spaces)) → braces = 0 ∨ braces < s.depth →
      Step s [] (s.keep (name + spaces))
  /-- A name with a run of braces that is long enough begins an element. -/
  | element {cs name spaces braces} : s.rest = '#' :: cs → name = nameLength s.rest →
      spaces = runLength ' ' (s.rest.drop name) →
      braces = runLength '{' (s.rest.drop (name + spaces)) → 0 < braces → s.depth ≤ braces →
      Step s (textToken s.pendingPosition s.pending ++
          [⟨.elementName, String.ofList (s.rest.take name), s.position⟩,
            ((s.skip (name + spaces)).openArgument braces).1])
        ((s.skip (name + spaces)).openArgument braces).2
  /-- A closing run that is too short for the innermost argument is text. -/
  | short {cs count} : s.rest = '}' :: cs → count = runLength '}' s.rest → s.opened ≠ [] →
      count < s.depth → Step s [] (s.keep count)
  /-- A closing run closes one or more arguments. -/
  | close {cs count closed opened} : s.rest = '}' :: cs → count = runLength '}' s.rest →
      s.opened ≠ [] → s.depth ≤ count →
      closeArguments s.position count s.opened = (closed, 0, opened) →
      runLength '{' (s.outside count opened).rest = 0 ∨
        runLength '{' (s.outside count opened).rest < (s.outside count opened).depth →
      Step s (textToken s.pendingPosition (dropSpace s.pending) ++ closed) (s.outside count opened)
  /-- A closing run with a run of opening braces right behind it, which begins a further
      argument. -/
  | chain {cs count closed opened braces} : s.rest = '}' :: cs → count = runLength '}' s.rest →
      s.opened ≠ [] → s.depth ≤ count →
      closeArguments s.position count s.opened = (closed, 0, opened) →
      braces = runLength '{' (s.outside count opened).rest → 0 < braces →
      (s.outside count opened).depth ≤ braces →
      Step s (textToken s.pendingPosition (dropSpace s.pending) ++ closed ++
          [((s.outside count opened).openArgument braces).1])
        ((s.outside count opened).openArgument braces).2

theorem take_runLength (c : Char) (cs : List Char) :
    cs.take (runLength c cs) = List.replicate (runLength c cs) c := by
  induction cs with
  | nil => rfl
  | cons d ds ih =>
    by_cases hd : d = c
    · subst hd
      simpa [runLength, List.replicate_succ] using ih
    · simp [runLength, hd]

theorem runLength_pos {c : Char} {cs ds : List Char} (h : cs = c :: ds) : 0 < runLength c cs := by
  simp [runLength, h]

theorem utf8ByteSize_replicate {c : Char} (hc : c.utf8Size = 1) (n : Nat) :
    (String.ofList (List.replicate n c)).utf8ByteSize = n := by
  induction n with
  | zero => rfl
  | succ n ih =>
    rw [List.replicate_succ', String.ofList_append, String.utf8ByteSize_append, ih,
      ← String.singleton_eq_ofList, String.utf8ByteSize_singleton, hc]

theorem Scanner.openArgument_fst (s : Scanner) (braces : Nat) :
    (s.openArgument braces).1 =
      ⟨.argumentOpen, String.ofList (s.rest.take braces), s.position⟩ := rfl

/-- Inside of an argument: behind its braces, and behind one space if there is one. -/
theorem Scanner.openArgument_snd (s : Scanner) (braces : Nat) :
    (s.openArgument braces).2 =
      let inside := s.outside braces (⟨braces, s.position⟩ :: s.opened)
      if inside.rest.head? = some ' ' then inside.skip 1 else inside := rfl

theorem Scanner.openArgument_opened (s : Scanner) (braces : Nat) :
    (s.openArgument braces).2.opened = ⟨braces, s.position⟩ :: s.opened := by
  simp only [Scanner.openArgument]
  split <;> rfl

theorem Scanner.step_element {s : Scanner} {cs : List Char} (hs : s.rest = '#' :: cs) :
    s.Step s.element.1 s.element.2 := by
  simp only [Scanner.element]
  split
  · next h => exact .hash hs rfl rfl rfl h
  · next h => exact .element hs rfl rfl rfl (by omega) (by omega)

theorem Scanner.step_closing {s next : Scanner} {tokens : List Token} {cs : List Char}
    (hs : s.rest = '}' :: cs) (h : s.closing = .ok (tokens, next)) : s.Step tokens next := by
  simp only [Scanner.closing] at h
  split at h
  · cases h
  next hopened =>
  have hopened : s.opened ≠ [] := by simpa using hopened
  split at h
  · next hlt => cases h; exact .short hs rfl hopened hlt
  next hle =>
  have hle : s.depth ≤ runLength '}' s.rest := by omega
  split at h
  · cases h
  next hleft =>
  have hclosed : closeArguments s.position (runLength '}' s.rest) s.opened =
      ((closeArguments s.position (runLength '}' s.rest) s.opened).1, 0,
        (closeArguments s.position (runLength '}' s.rest) s.opened).2.2) := by
    rw [← Nat.eq_zero_of_not_pos hleft]
  split at h
  · next hb => cases h; exact .close hs rfl hopened hle hclosed hb
  · next hb =>
    cases h
    simp only [not_or, Nat.not_lt] at hb
    exact .chain hs rfl hopened hle hclosed rfl (Nat.pos_of_ne_zero hb.1) hb.2

theorem Scanner.step_of_hash {s : Scanner} {cs : List Char} (hs : s.rest = '#' :: cs) :
    s.step = .ok (s.element.1, some s.element.2) := by
  simp only [Scanner.step, hs]

theorem Scanner.step_of_brace {s : Scanner} {cs : List Char} (hs : s.rest = '}' :: cs) :
    s.step = s.closing.map fun r => (r.1, some r.2) := by
  simp only [Scanner.step, hs]
  cases s.closing <;> rfl

theorem Scanner.step_of_char {s : Scanner} {c : Char} {cs : List Char} (hs : s.rest = c :: cs)
    (hh : c ≠ '#') (hb : c ≠ '}') : s.step = .ok ([], some (s.keep 1)) := by
  unfold Scanner.step
  split
  · next h => simp [hs] at h
  · next h => exact absurd (List.cons.inj (hs.symm.trans h)).1 hh
  · next h => exact absurd (List.cons.inj (hs.symm.trans h)).1 hb
  · rfl

/-- **The rules are the steps.** -/
theorem Scanner.step_eq_ok_iff {s next : Scanner} {tokens : List Token} :
    s.step = .ok (tokens, some next) ↔ s.Step tokens next := by
  constructor
  · intro h
    cases hs : s.rest with
    | nil =>
      cases hf : s.finish <;>
        simp [Scanner.step, hs, hf, bind, Except.bind, pure, Except.pure] at h
    | cons c cs =>
      by_cases hh : c = '#'
      · subst hh
        rw [Scanner.step_of_hash hs] at h
        cases h
        exact Scanner.step_element hs
      by_cases hb : c = '}'
      · subst hb
        rw [Scanner.step_of_brace hs] at h
        cases hc : s.closing with
        | error e => simp [hc, Except.map] at h
        | ok r =>
          simp only [hc, Except.map, Except.ok.injEq, Prod.mk.injEq, Option.some.injEq] at h
          obtain ⟨rfl, rfl⟩ := h
          exact Scanner.step_closing hs hc
      · rw [Scanner.step_of_char hs hh hb] at h
        cases h
        exact .char hs hh hb
  · intro h
    cases h with
    | char hs hh hb => exact Scanner.step_of_char hs hh hb
    | hash hs hn hsp hb hlt =>
      subst hn hsp hb
      simp only [nameLength] at hlt
      simp only [Scanner.step_of_hash hs, Scanner.element, nameLength, if_pos hlt]
    | element hs hn hsp hb h0 hle =>
      subst hn hsp hb
      simp only [nameLength] at h0 hle
      have hlong := not_or.2 ⟨Nat.ne_of_gt h0, Nat.not_lt.2 hle⟩
      simp only [Scanner.step_of_hash hs, Scanner.element, nameLength, if_neg hlong]
    | short hs hc hopened hlt =>
      subst hc
      have hopened : s.opened.isEmpty = false := by simpa using hopened
      simp [Scanner.step_of_brace hs, Scanner.closing, hopened, hlt, Except.map]
    | close hs hc hopened hle hclosed hb =>
      subst hc
      have hopened : s.opened.isEmpty = false := by simpa using hopened
      simp only [Scanner.step_of_brace hs, Scanner.closing, hopened, Bool.false_eq_true, if_false,
        if_neg (Nat.not_lt.2 hle), hclosed, Nat.lt_irrefl]
      exact congrArg _ (if_pos hb)
    | chain hs hc hopened hle hclosed hb h0 hle' =>
      subst hc hb
      have hopened : s.opened.isEmpty = false := by simpa using hopened
      have hlong := not_or.2 ⟨Nat.ne_of_gt h0, Nat.not_lt.2 hle'⟩
      simp only [Scanner.step_of_brace hs, Scanner.closing, hopened, Bool.false_eq_true, if_false,
        if_neg (Nat.not_lt.2 hle), hclosed, Nat.lt_irrefl]
      exact congrArg (Except.map _) (if_neg hlong)

/-- A step does not end the text before its end. -/
theorem Scanner.step_ne_end {s : Scanner} {c : Char} {cs : List Char} {tokens : List Token}
    (hs : s.rest = c :: cs) : s.step ≠ .ok (tokens, none) := by
  by_cases hh : c = '#'
  · subst hh; simp [Scanner.step_of_hash hs]
  by_cases hb : c = '}'
  · subst hb; rw [Scanner.step_of_brace hs]; cases s.closing <;> simp [Except.map]
  · simp [Scanner.step_of_char hs hh hb]

/-! ## Runs -/

theorem Scanner.run_of_step {s next : Scanner} {tokens : List Token} (h : s.Step tokens next) :
    s.run = next.run.map (tokens ++ ·) := by
  have h := Scanner.step_eq_ok_iff.2 h
  rw [Scanner.run]
  split
  · next h' => rw [h] at h'; cases h'
  · next h' => rw [h] at h'; cases h'
  · next h' =>
    rw [h] at h'
    cases h'
    cases next.run <;> rfl

/-- The run of a scanner that has read everything: all arguments must be closed. -/
theorem Scanner.run_of_nil {s : Scanner} (h : s.rest = []) : s.run = s.finish := by
  rw [Scanner.run]
  split <;> next h' =>
    simp only [Scanner.step, h] at h'
    cases hf : s.finish <;> simp_all [bind, Except.bind, pure, Except.pure]

/-- **Induction on a run** that finds no fault: what holds of the end of a text, and of a scanner
    if it holds of the scanner one step later, holds of every run. -/
theorem Scanner.run_induction {motive : Scanner → List Token → Prop}
    (finish : ∀ s : Scanner, s.rest = [] → s.opened = [] →
      motive s (textToken s.pendingPosition s.pending ++ [⟨.endOfInput, "", s.position⟩]))
    (step : ∀ (s next : Scanner) (tokens later : List Token), s.Step tokens next →
      motive next later → motive s (tokens ++ later))
    {s : Scanner} {tokens : List Token} (h : s.run = .ok tokens) : motive s tokens := by
  fun_induction Scanner.run s generalizing tokens with
  | case1 => cases h
  | case2 s ts hs =>
    cases hr : s.rest with
    | nil =>
      simp only [Scanner.step, hr] at hs
      cases ho : s.opened with
      | nil =>
        simp only [Scanner.finish, ho, bind, Except.bind, pure, Except.pure] at hs
        cases hs
        cases h
        exact finish s hr ho
      | cons a outer => simp [Scanner.finish, ho, bind, Except.bind] at hs
    | cons c cs => exact absurd hs (Scanner.step_ne_end hr)
  | case3 s ts next hs ih =>
    cases hn : next.run with
    | error e => simp [hn, bind, Except.bind] at h
    | ok later =>
      simp only [hn, bind, Except.bind, pure, Except.pure] at h
      cases h
      exact step s next ts later (Scanner.step_eq_ok_iff.1 hs) (ih hn)

/-! ## The end token -/

theorem kind_textToken {p : Position} {pending : List Char} {t : Token}
    (h : t ∈ textToken p pending) : t.kind = .text := by
  unfold textToken at h
  split at h
  · cases h
  · rw [List.mem_singleton.1 h]

theorem Closed.kind {p : Position} {count : Nat} {opened left : List OpenArgument}
    {tokens : List Token} (h : Closed p count opened tokens left) {t : Token} (ht : t ∈ tokens) :
    t.kind = .argumentClose := by
  induction h with
  | done => cases ht
  | next _ ih =>
    rcases List.mem_cons.1 ht with rfl | ht
    · rfl
    · exact ih ht

/-- No step completes an end token. -/
theorem Scanner.Step.kind_ne {s next : Scanner} {tokens : List Token} (h : s.Step tokens next)
    {t : Token} (ht : t ∈ tokens) : t.kind ≠ .endOfInput := by
  have hopen : ∀ (s : Scanner) (braces : Nat), (s.openArgument braces).1.kind = .argumentOpen :=
    fun _ _ => rfl
  cases h with
  | char | hash | short => cases ht
  | element =>
    simp only [List.mem_append, List.mem_cons, List.not_mem_nil, or_false] at ht
    rcases ht with ht | rfl | rfl
    · simp [kind_textToken ht]
    · simp
    · simp [hopen]
  | close _ _ _ _ hclosed _ =>
    rcases List.mem_append.1 ht with ht | ht
    · simp [kind_textToken ht]
    · simp [(Closed.of_closeArguments hclosed).kind ht]
  | chain _ _ _ _ hclosed _ _ _ =>
    simp only [List.mem_append, List.mem_singleton] at ht
    rcases ht with (ht | ht) | rfl
    · simp [kind_textToken ht]
    · simp [(Closed.of_closeArguments hclosed).kind ht]
    · simp [hopen]

/-- The last token of a run is its only end token. -/
theorem Scanner.run_eq_append {s : Scanner} {tokens : List Token} (h : s.run = .ok tokens) :
    ∃ early last, tokens = early ++ [last] ∧ last.kind = .endOfInput ∧ last.text = "" ∧
      ∀ t ∈ early, t.kind ≠ .endOfInput := by
  refine Scanner.run_induction (motive := fun _ tokens => ∃ early last, tokens = early ++ [last] ∧
    last.kind = .endOfInput ∧ last.text = "" ∧ ∀ t ∈ early, t.kind ≠ .endOfInput) ?_ ?_ h
  · intro s _ _
    exact ⟨_, _, rfl, rfl, rfl, fun t ht => by simp [kind_textToken ht]⟩
  · rintro s next tokens later hs ⟨early, last, rfl, hk, ht, hkinds⟩
    refine ⟨tokens ++ early, last, by simp, hk, ht, fun t hm => ?_⟩
    rcases List.mem_append.1 hm with hm | hm
    · exact hs.kind_ne hm
    · exact hkinds t hm

end BraceMarkup
