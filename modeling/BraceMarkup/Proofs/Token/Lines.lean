/-
  Texts one behind the other.

  A line feed is neither part of a name nor of the spaces behind it nor of a
  run of braces, so that no step of the scanner looks past it: what ends with a
  line feed is read the same whatever comes behind.  Where no argument is open
  then, reading goes on as from the beginning, further down and with the text
  of the last line still pending.

  * `EndsLine`: a text whose last character is a line feed;
  * `Scanner.Step.append`: a step in front of the end of a line;
  * `Scanner.reads_lines`: a text up to the end of its last line;
  * `Scanner.TextThen`: the run of a scanner outside of all arguments is some
    text, which joins the pending text, and what does not depend on that.
-/
import BraceMarkup.Proofs.Token.Layout
import BraceMarkup.Proofs.Token.Reading
import BraceMarkup.Proofs.Token.Shift

namespace BraceMarkup

/-! ## Line ends -/

/-- A text whose last character is a line feed. -/
def EndsLine (cs : List Char) : Prop := ∃ line, cs = line ++ ['\n']

namespace EndsLine

variable {cs ds : List Char} {c : Char} {p : Char → Bool} {n : Nat}

theorem ne_nil (h : EndsLine cs) : cs ≠ [] := by
  obtain ⟨line, rfl⟩ := h
  simp

/-- A line feed alone, or an earlier character and a text that ends a line. -/
theorem cons_iff : EndsLine (c :: cs) ↔ c = '\n' ∧ cs = [] ∨ EndsLine cs := by
  constructor
  · rintro ⟨line, hline⟩
    cases line with
    | nil =>
      rw [List.nil_append, List.cons.injEq] at hline
      exact .inl hline
    | cons d line => exact .inr ⟨line, (List.cons.inj hline).2⟩
  · rintro (⟨rfl, rfl⟩ | ⟨line, rfl⟩)
    · exact ⟨[], rfl⟩
    · exact ⟨c :: line, rfl⟩

theorem of_cons (h : EndsLine (c :: cs)) (hc : c ≠ '\n') : EndsLine cs :=
  (cons_iff.1 h).resolve_left fun h => hc h.1

/-- What is left of a text that ends a line. -/
theorem drop (h : EndsLine cs) (hn : n < cs.length) : EndsLine (cs.drop n) := by
  obtain ⟨line, rfl⟩ := h
  rw [List.length_append, List.length_singleton, Nat.lt_succ_iff] at hn
  exact ⟨line.drop n, List.drop_append_of_le_length hn⟩

theorem lt_length (h : EndsLine (cs.drop n)) : n < cs.length := by
  refine Nat.lt_of_not_le fun hle => h.ne_nil (List.drop_eq_nil_of_le hle)

theorem drop_append (h : EndsLine (cs.drop n)) : (cs ++ ds).drop n = cs.drop n ++ ds :=
  List.drop_append_of_le_length (Nat.le_of_lt h.lt_length)

theorem take_append (h : EndsLine (cs.drop n)) : (cs ++ ds).take n = cs.take n :=
  List.take_append_of_le_length (Nat.le_of_lt h.lt_length)

theorem head?_append (h : EndsLine cs) : (cs ++ ds).head? = cs.head? :=
  List.head?_append_of_ne_nil cs h.ne_nil

/-- Characters of a kind that a line feed is not of. -/
theorem takeWhile (h : EndsLine cs) (ds : List Char) (hp : p '\n' = false) :
    (cs ++ ds).takeWhile p = cs.takeWhile p ∧ EndsLine (cs.drop (cs.takeWhile p).length) := by
  obtain ⟨line, rfl⟩ := h
  induction line with
  | nil => simp [hp, EndsLine]
  | cons c line ih =>
    by_cases hc : p c = true
    · simpa [hc] using ih
    · exact ⟨by simp [hc], by simpa [hc] using ⟨c :: line, rfl⟩⟩

theorem runLength_append (h : EndsLine cs) (hc : c ≠ '\n') :
    runLength c (cs ++ ds) = runLength c cs := by
  rw [runLength, (h.takeWhile ds (by simpa using hc.symm)).1, runLength]

theorem drop_runLength (h : EndsLine cs) (hc : c ≠ '\n') : EndsLine (cs.drop (runLength c cs)) :=
  (h.takeWhile [] (by simpa using hc.symm)).2

/-- A name at the front of a text that ends a line, the spaces behind it and the braces behind
    these are the same whatever comes behind the line. -/
theorem behind_hash {tail : List Char} {name spaces braces : Nat} (h : EndsLine cs)
    (ds : List Char) (hcs : cs = '#' :: tail) (hname : name = nameLength cs)
    (hspaces : spaces = runLength ' ' (cs.drop name))
    (hbraces : braces = runLength '{' (cs.drop (name + spaces))) :
    (name = nameLength (cs ++ ds) ∧ spaces = runLength ' ' ((cs ++ ds).drop name) ∧
      braces = runLength '{' ((cs ++ ds).drop (name + spaces))) ∧
    EndsLine (cs.drop (name + spaces)) ∧ EndsLine ((cs.drop (name + spaces)).drop braces) := by
  have htail : EndsLine tail := (hcs ▸ h).of_cons (by decide)
  obtain ⟨htake, hdrop⟩ := htail.takeWhile (p := isNameChar) ds (by decide)
  have hbehind : EndsLine (cs.drop name) := by
    rw [hname, nameLength, Nat.add_comm, hcs, List.drop_succ_cons]
    exact hdrop
  have hspaced : EndsLine (cs.drop (name + spaces)) := by
    rw [← List.drop_drop, hspaces]
    exact hbehind.drop_runLength (by decide)
  refine ⟨⟨?_, ?_, ?_⟩, hspaced, hbraces ▸ hspaced.drop_runLength (by decide)⟩
  · rw [hname, nameLength, nameLength, hcs, List.cons_append, List.tail_cons, List.tail_cons, htake]
  · rw [hbehind.drop_append, hbehind.runLength_append (by decide)]
    exact hspaces
  · rw [hspaced.drop_append, hspaced.runLength_append (by decide)]
    exact hbraces

end EndsLine

/-- Behind the end of a line a text goes on as many lines down as it has line feeds. -/
theorem EndsLine.advanceList {cs : List Char} (h : EndsLine cs) :
    Position.start.advanceList cs = Position.start.down (cs.count '\n') := by
  obtain ⟨line, rfl⟩ := h
  rw [advanceList_start, lineAndColumn]
  simp [Position.down, Position.start]

/-! ## Reading up to the end of a line -/

namespace Scanner

/-- The scanner with more text behind what is left. -/
def append (s : Scanner) (ds : List Char) : Scanner := { s with rest := s.rest ++ ds }

section
variable {s next : Scanner} {tokens : List Token} {n : Nat} (ds : List Char)

theorem keep_append (h : n ≤ s.rest.length) : (s.append ds).keep n = (s.keep n).append ds := by
  simp only [append, keep, List.drop_append_of_le_length h, List.take_append_of_le_length h]

theorem skip_append (h : EndsLine (s.rest.drop n)) :
    (s.append ds).skip n = (s.skip n).append ds := by
  simp only [append, skip, h.drop_append, h.take_append]

theorem outside_append (h : EndsLine (s.rest.drop n)) (opened : List OpenArgument) :
    (s.append ds).outside n opened = (s.outside n opened).append ds := by
  rw [outside, skip_append ds h]
  rfl

theorem openArgument_append (h : EndsLine (s.rest.drop n)) :
    (s.append ds).openArgument n = ((s.openArgument n).1, (s.openArgument n).2.append ds) ∧
      EndsLine (s.openArgument n).2.rest := by
  have hinside := outside_append ds h (⟨n, s.position⟩ :: s.opened)
  have hfst : ((s.append ds).openArgument n).1 = (s.openArgument n).1 := by
    rw [openArgument_fst, openArgument_fst]
    simp only [append, h.take_append]
  rw [Prod.ext_iff]
  simp only [hfst, true_and]
  rw [openArgument_snd, openArgument_snd]
  simp only [show (s.append ds).position = s.position from rfl,
    show (s.append ds).opened = s.opened from rfl, hinside]
  have hhead : ((s.outside n (⟨n, s.position⟩ :: s.opened)).append ds).rest.head? =
      (s.outside n (⟨n, s.position⟩ :: s.opened)).rest.head? := h.head?_append
  rw [hhead]
  split
  · next hspace =>
    obtain ⟨cs, hcs⟩ := List.head?_eq_some_iff.1 hspace
    have hrest : EndsLine ((s.outside n (⟨n, s.position⟩ :: s.opened)).rest.drop 1) := by
      have hline : EndsLine (s.outside n (⟨n, s.position⟩ :: s.opened)).rest := h
      rw [hcs] at hline ⊢
      exact hline.of_cons (by decide)
    exact ⟨skip_append ds hrest, hrest⟩
  · exact ⟨rfl, h⟩

/-- What is left ends a line, or the text has ended with pending text. -/
def AtLineEnd (s : Scanner) : Prop := EndsLine s.rest ∨ s.rest = [] ∧ s.pending ≠ []

/-- A step in front of the end of a line is the same whatever comes behind. -/
theorem Step.append (h : s.Step tokens next) (hline : EndsLine s.rest) :
    (s.append ds).Step tokens (next.append ds) ∧ next.AtLineEnd := by
  have hfront : ∀ {c cs}, s.rest = c :: cs → (s.append ds).rest = c :: (cs ++ ds) := by
    intro c cs hs
    rw [Scanner.append, hs, List.cons_append]
  have hrun : ∀ {count}, count = runLength '}' s.rest →
      count = runLength '}' (s.append ds).rest ∧ EndsLine (s.rest.drop count) ∧
        runLength '{' (s.rest.drop count ++ ds) = runLength '{' (s.rest.drop count) := by
    rintro count rfl
    have hbehind := hline.drop_runLength (c := '}') (by decide)
    exact ⟨(hline.runLength_append (by decide)).symm, hbehind, hbehind.runLength_append (by decide)⟩
  cases h with
  | @char c cs hs hh hb =>
    have hkeep : (s.keep 1).rest = cs := by simp [hs]
    refine ⟨keep_append ds (show 1 ≤ s.rest.length by simp [hs]) ▸ .char (hfront hs) hh hb, ?_⟩
    rw [hs, EndsLine.cons_iff] at hline
    rcases hline with ⟨rfl, rfl⟩ | hline
    · exact .inr ⟨hkeep, by simp [Scanner.keep, hs]⟩
    · exact .inl (hkeep ▸ hline)
  | @hash cs name spaces braces hs hn hsp hb hlt =>
    obtain ⟨⟨hn', hsp', hb'⟩, hspaced, -⟩ := hline.behind_hash ds hs hn hsp hb
    have hle := Nat.le_of_lt hspaced.lt_length
    exact ⟨keep_append ds hle ▸ .hash (hfront hs) hn' hsp' hb' hlt, .inl hspaced⟩
  | @element cs name spaces braces hs hn hsp hb h0 hle =>
    obtain ⟨⟨hn', hsp', hb'⟩, hspaced, hbraced⟩ := hline.behind_hash ds hs hn hsp hb
    have hname := hline.drop (Nat.lt_of_le_of_lt (Nat.le_add_right name spaces) hspaced.lt_length)
    obtain ⟨hopen, hinside⟩ := openArgument_append (s := s.skip (name + spaces)) ds hbraced
    have hstep := Step.element (s := s.append ds) (hfront hs) hn' hsp' hb' h0 hle
    rw [skip_append ds hspaced, hopen, show (s.append ds).rest.take name = s.rest.take name from
      hname.take_append] at hstep
    exact ⟨hstep, .inl hinside⟩
  | @short cs count hs hc ho hlt =>
    obtain ⟨hcount, hbehind, -⟩ := hrun hc
    have hle := Nat.le_of_lt hbehind.lt_length
    exact ⟨keep_append ds hle ▸ .short (hfront hs) hcount ho hlt, .inl hbehind⟩
  | @close cs count closed opened hs hc ho hle hclosed hb =>
    obtain ⟨hcount, hbehind, hbraces⟩ := hrun hc
    have hstep := Step.close (s := s.append ds) (hfront hs) hcount ho hle hclosed
    rw [outside_append ds hbehind] at hstep
    exact ⟨hstep (hbraces ▸ hb), .inl hbehind⟩
  | @chain cs count closed opened braces hs hc ho hle hclosed hb h0 hle' =>
    obtain ⟨hcount, hbehind, hbraces⟩ := hrun hc
    have hbraced : EndsLine ((s.rest.drop count).drop braces) :=
      hb ▸ hbehind.drop_runLength (by decide)
    obtain ⟨hopen, hinside⟩ := openArgument_append (s := s.outside count opened) ds hbraced
    have hstep := @Step.chain (s.append ds) (cs ++ ds) count _ _ braces (hfront hs) hcount ho hle
      hclosed
    rw [outside_append ds hbehind, hopen] at hstep
    exact ⟨hstep (hb.trans hbraces.symm) h0 hle', .inl hinside⟩

end

section
variable {s next : Scanner} {tokens : List Token}

theorem advanceList_keep (n : Nat) :
    (s.keep n).position.advanceList (s.keep n).rest = s.position.advanceList s.rest := by
  simp only [keep, ← Position.advanceList_append, List.take_append_drop]

theorem advanceList_skip (n : Nat) :
    (s.skip n).position.advanceList (s.skip n).rest = s.position.advanceList s.rest :=
  advanceList_keep n

theorem advanceList_openArgument (n : Nat) :
    (s.openArgument n).2.position.advanceList (s.openArgument n).2.rest =
      s.position.advanceList s.rest := by
  have hinside := advanceList_skip (s := s) n
  simp only [openArgument_snd]
  split
  · exact (advanceList_skip (s := s.outside n (⟨n, s.position⟩ :: s.opened)) 1).trans hinside
  · exact hinside

/-- A step does not change where the text ends. -/
theorem Step.advanceList (h : s.Step tokens next) :
    next.position.advanceList next.rest = s.position.advanceList s.rest := by
  cases h with
  | char | hash | short => exact advanceList_keep _
  | element => exact (advanceList_openArgument _).trans (advanceList_skip _)
  | @close cs count => exact advanceList_skip count
  | @chain cs count => exact (advanceList_openArgument _).trans (advanceList_skip count)

theorem Step.rest_ne_nil (h : s.Step tokens next) : s.rest ≠ [] := by
  cases h <;> simp [*]

/-- All tokens but the text at the end are complete where the text ends, whatever comes behind; what
    that text consists of is pending then, and no argument is open. -/
def ReadsLines (s : Scanner) (tokens : List Token) : Prop :=
  ∃ early pending position, pending ≠ [] ∧
    tokens = early ++ (textToken position pending ++
      [⟨.endOfInput, "", s.position.advanceList s.rest⟩]) ∧
    ∀ ds, (s.append ds).Reads early ⟨ds, s.position.advanceList s.rest, pending, position, []⟩

/-- A text up to the end of its last line. -/
theorem reads_lines (h : s.run = .ok tokens) (hline : s.AtLineEnd) : s.ReadsLines tokens := by
  refine run_induction (motive := fun s tokens => s.AtLineEnd → s.ReadsLines tokens) ?_ ?_ h hline
  · rintro s hs ho (hline | ⟨-, hpending⟩)
    · exact absurd hs hline.ne_nil
    · refine ⟨[], s.pending, s.pendingPosition, hpending, by simp [hs], fun ds => ?_⟩
      have hend : s.append ds =
          ⟨ds, s.position.advanceList s.rest, s.pending, s.pendingPosition, []⟩ := by
        simp [append, hs, ho]
      exact hend ▸ Reads.refl _
  · intro s next tokens later hstep ih hline
    have hrest := hline.resolve_right fun h => hstep.rest_ne_nil h.1
    obtain ⟨early, pending, position, hpending, htokens, hreads⟩ := ih (hstep.append [] hrest).2
    rw [hstep.advanceList] at htokens hreads
    refine ⟨tokens ++ early, pending, position, hpending, by rw [htokens, List.append_assoc], ?_⟩
    exact fun ds => (hstep.append ds hrest).1.reads.trans (hreads ds)

end

/-! ## Pending text -/

/-- The scanner with other pending text. -/
def withPending (s : Scanner) (pending : List Char) (position : Position) : Scanner :=
  { s with pending, pendingPosition := position }

@[simp] theorem opened_withPending (s : Scanner) (pending : List Char) (position : Position) :
    (s.withPending pending position).opened = s.opened := rfl

@[simp] theorem depth_withPending (s : Scanner) (pending : List Char) (position : Position) :
    (s.withPending pending position).depth = s.depth := rfl

/-- The scanner reads some text, which joins whatever is pending, and then `later`, so many lines
    further down as the scanner is. -/
def TextThen (s : Scanner) (text : List Char) (later : Except LexError (List Token)) : Prop :=
  ∀ (k : Nat) (pending : List Char) (position : Position),
    ((s.down k).withPending pending position).run =
      (downRun k later).map (textToken position (text ++ pending) ++ ·)

section
variable {s : Scanner}

/-- Text that is kept joins the text behind it. -/
theorem TextThen.keep {n : Nat} {text : List Char} {later : Except LexError (List Token)}
    (h : (s.keep n).TextThen text later)
    (hstep : ∀ k pending position, ((s.down k).withPending pending position).Step []
      (((s.down k).withPending pending position).keep n)) :
    s.TextThen (text ++ (s.rest.take n).reverse) later := by
  intro k pending position
  have hkeep : ((s.down k).withPending pending position).keep n =
      ((s.keep n).down k).withPending ((s.rest.take n).reverse ++ pending) position := by
    rw [← keep_down]
    rfl
  rw [run_of_step (hstep k pending position), hkeep, h, List.append_assoc]
  cases downRun k later <;> rfl

/-- What completes tokens leaves the pending text behind. -/
theorem textThen_of_step (tokens : List Token) (next : Scanner)
    (hstep : ∀ k pending position, ((s.down k).withPending pending position).Step
      (textToken position pending ++ tokens.map (·.down k)) (next.down k)) :
    s.TextThen [] (next.run.map (tokens ++ ·)) := by
  intro k pending position
  rw [run_of_step (hstep k pending position), run_down, downRun_map]
  cases downRun k next.run with
  | error e => rfl
  | ok later => exact congrArg Except.ok (List.append_assoc _ _ _)

/-- Outside of all arguments the pending text goes into the next text token, and nothing else
    depends on it. -/
theorem exists_textThen (s : Scanner) (ho : s.opened = []) :
    ∃ (text : List Char) (later : Except LexError (List Token)), s.TextThen text later := by
  induction s using Scanner.induction with
  | finish s hs =>
    refine ⟨[], .ok [⟨.endOfInput, "", s.position⟩], fun k pending position => ?_⟩
    rw [run_of_end (s := (s.down k).withPending pending position) hs (by simp [ho])]
    rfl
  | fault s e h =>
    refine ⟨[], .error e, fun k pending position => ?_⟩
    cases h with
    | unterminated hs ho' => exact absurd (ho'.symm.trans ho) (List.cons_ne_nil _ _)
    | stray hs hc =>
      rw [run_of_fault (.stray (s := (s.down k).withPending pending position) hs hc (by simp [ho]))]
      rfl
    | excess _ _ hopened => exact absurd ho hopened
  | step s next tokens h ih =>
    cases h with
    | char hs hh hb =>
      obtain ⟨text, later, hrun⟩ := ih ho
      exact ⟨_, later, hrun.keep fun _ _ _ => .char hs hh hb⟩
    | hash hs hn hsp hb hlt =>
      obtain ⟨text, later, hrun⟩ := ih ho
      exact ⟨_, later, hrun.keep fun k _ _ => .hash hs hn hsp hb (by simpa using hlt)⟩
    | @element cs name spaces braces hs hn hsp hb h0 hle =>
      refine ⟨[], _, textThen_of_step
        [⟨.elementName, String.ofList (s.rest.take name), s.position⟩,
          ((s.skip (name + spaces)).openArgument braces).1]
        ((s.skip (name + spaces)).openArgument braces).2 fun k pending position => ?_⟩
      have hstep := Step.element (s := (s.down k).withPending pending position) hs hn hsp hb h0
        (by simpa using hle)
      have hskip : ((s.down k).withPending pending position).skip (name + spaces) =
          (s.skip (name + spaces)).down k := skip_down s k _
      rw [hskip, openArgument_down] at hstep
      exact hstep
    | short _ _ hopened | close _ _ hopened | chain _ _ hopened => exact absurd ho hopened

end

end Scanner

end BraceMarkup
