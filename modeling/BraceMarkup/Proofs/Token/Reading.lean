/-
  Reading on in a text.

  * `Scanner.Reads`: a scanner completes some tokens and goes on as another one;
  * `NoRun`: a character never stands so many times in a row;
  * `Scanner.reads_text`: text without long runs of braces is read as text;
  * `Scanner.opening`: the braces at the front of the rest open an argument;
  * `Scanner.reads_element`: a name in front of such braces begins an element;
  * `Scanner.ClosesTo`, `Scanner.reads_close`: a space and a closing run leave
    an argument.
-/
import BraceMarkup.Proofs.Token.Step

namespace BraceMarkup

/-! ## Reading on -/

/-- The scanner completes some tokens and goes on as `next`. -/
def Scanner.Reads (s : Scanner) (tokens : List Token) (next : Scanner) : Prop :=
  s.run = next.run.map (tokens ++ ·)

theorem Scanner.Reads.refl (s : Scanner) : s.Reads [] s := by
  unfold Scanner.Reads
  cases s.run <;> rfl

theorem Scanner.Reads.trans {s mid next : Scanner} {tokens later : List Token}
    (h : s.Reads tokens mid) (hl : mid.Reads later next) : s.Reads (tokens ++ later) next := by
  unfold Scanner.Reads at *
  rw [h, hl]
  cases next.run <;> simp [Except.map]

theorem Scanner.Step.reads {s next : Scanner} {tokens : List Token} (h : s.Step tokens next) :
    s.Reads tokens next := Scanner.run_of_step h

/-- Two scanners that go on alike, of which the first takes longer. -/
theorem Scanner.Reads.of_trans {s mid next : Scanner} (h : s.Reads [] next)
    (hm : mid.Reads [] next) : s.Reads [] mid := by
  unfold Scanner.Reads at *
  rw [h, hm]
  cases next.run <;> rfl

@[simp] theorem Scanner.keep_zero (s : Scanner) : s.keep 0 = s := by
  simp [Scanner.keep]

theorem Scanner.keep_add (s : Scanner) (m n : Nat) : s.keep (m + n) = (s.keep m).keep n := by
  simp only [Scanner.keep, List.drop_drop, List.take_add, Position.advanceList_append,
    List.reverse_append, List.append_assoc]

/-- Characters that begin neither an element nor a closing run are read one by one. -/
theorem Scanner.reads_plain {s : Scanner} {us vs : List Char} (hs : s.rest = us ++ vs)
    (hus : ∀ c ∈ us, c ≠ '#' ∧ c ≠ '}') : s.Reads [] (s.keep us.length) := by
  induction us generalizing s with
  | nil => exact s.keep_zero ▸ Scanner.Reads.refl s
  | cons c us ih =>
    have hc := hus c (by simp)
    have hstep : s.Step [] (s.keep 1) := .char hs hc.1 hc.2
    have hrest : (s.keep 1).rest = us ++ vs := by simp [hs]
    rw [List.length_cons, Nat.add_comm, Scanner.keep_add]
    exact hstep.reads.trans (ih hrest fun d hd => hus d (by simp [hd]))

/-! ## Text without long runs -/

/-- Nowhere in a text stand `n` times the character `c` in a row. -/
def NoRun (n : Nat) (c : Char) (cs : List Char) : Prop := ¬ List.replicate n c <:+: cs

instance (n : Nat) (c : Char) (cs : List Char) : Decidable (NoRun n c cs) :=
  inferInstanceAs (Decidable (¬ _))

theorem noRun_of_length_lt {n : Nat} {c : Char} {cs : List Char} (h : cs.length < n) :
    NoRun n c cs := fun hi => by
  have := hi.length_le
  rw [List.length_replicate] at this
  omega

theorem noRun_one {c : Char} {cs : List Char} (h : c ∉ cs) : NoRun 1 c cs :=
  fun hi => h (hi.subset (by simp))

theorem runLength_append {c : Char} {xs ys : List Char} (h : ys.head? ≠ some c) :
    runLength c (xs ++ ys) = runLength c xs := by
  unfold runLength
  rw [List.takeWhile_append]
  split
  · cases ys with
    | nil => simp_all
    | cons y ys =>
      have : (y == c) = false := by simpa using h
      simp_all
  · rfl

theorem runLength_eq_zero {c : Char} {xs : List Char} (h : xs.head? ≠ some c) :
    runLength c xs = 0 := by
  cases xs with
  | nil => rfl
  | cons d ds =>
    have : ¬ d = c := by simpa using h
    simp [runLength, this]

theorem NoRun.runLength_lt {n : Nat} {c : Char} {xs ys : List Char} (h : NoRun n c xs)
    (hys : ys <:+ xs) : runLength c ys < n := by
  refine Nat.lt_of_not_le fun hle => h ?_
  have hpre : List.replicate (runLength c ys) c <+: ys := take_runLength c ys ▸ List.take_prefix _ _
  have hle : List.replicate n c <+: List.replicate (runLength c ys) c :=
    ⟨List.replicate (runLength c ys - n) c, by rw [List.replicate_append_replicate]; congr; omega⟩
  exact (hle.trans hpre).isInfix.trans hys.isInfix

theorem NoRun.tail {n : Nat} {c d : Char} {xs : List Char} (h : NoRun n c (d :: xs)) :
    NoRun n c xs := fun hi => h (hi.trans (List.suffix_cons d xs).isInfix)

/-- What stands behind the nodes of an argument, or behind one of its texts: nothing, an element, or
    the space in front of a closing run. -/
def Bounds (tail : List Char) : Prop :=
  tail = [] ∨ (∃ cs, tail = '#' :: cs) ∨ ∃ cs, tail = ' ' :: '}' :: cs

theorem Bounds.head?_ne {tail : List Char} (h : Bounds tail) {c : Char} (hh : c ≠ '#')
    (hs : c ≠ ' ') : tail.head? ≠ some c := by
  rcases h with rfl | ⟨cs, rfl⟩ | ⟨cs, rfl⟩
  · simp
  · simpa using Ne.symm hh
  · simpa using Ne.symm hs

/-- No run of braces stands behind what bounds a text, once the spaces are left out. -/
theorem Bounds.runLength_spaces {tail : List Char} (h : Bounds tail) :
    runLength '{' (tail.dropWhile (· == ' ')) = 0 := by
  rcases h with rfl | ⟨cs, rfl⟩ | ⟨cs, rfl⟩ <;> rfl

theorem Bounds.dropWhile_isNameChar {tail : List Char} (h : Bounds tail) :
    tail.dropWhile isNameChar = tail := by
  rcases h with rfl | ⟨cs, rfl⟩ | ⟨cs, rfl⟩
  · rfl
  · exact List.dropWhile_cons_of_neg (by decide)
  · exact List.dropWhile_cons_of_neg (by decide)

theorem drop_length_takeWhile (p : Char → Bool) (cs : List Char) :
    cs.drop (cs.takeWhile p).length = cs.dropWhile p := by
  induction cs with
  | nil => rfl
  | cons c cs ih => by_cases hc : p c <;> simp [hc, ih]

/-- Behind a name in a text without long runs, and the spaces behind it, no long run stands. -/
theorem NoRun.behind_name {n : Nat} {cs tail : List Char} (h : NoRun n '{' cs)
    (ht : Bounds tail) (hpos : 0 < n) :
    runLength '{' (((cs ++ tail).dropWhile isNameChar).dropWhile (· == ' ')) < n := by
  have hname : (cs ++ tail).dropWhile isNameChar = cs.dropWhile isNameChar ++ tail := by
    rw [List.dropWhile_append]
    split
    · next he => rw [ht.dropWhile_isNameChar, List.isEmpty_iff.1 he, List.nil_append]
    · rfl
  rw [hname, List.dropWhile_append]
  split
  · rw [ht.runLength_spaces]
    exact hpos
  · rw [runLength_append (ht.head?_ne (by decide) (by decide))]
    exact h.runLength_lt ((List.dropWhile_suffix _).trans (List.dropWhile_suffix _))

/-- A `#` that begins no element is read as text. -/
theorem Scanner.reads_hash {s : Scanner} {cs : List Char} (hs : s.rest = '#' :: cs)
    (h : runLength '{' ((cs.dropWhile isNameChar).dropWhile (· == ' ')) < s.depth) :
    s.Reads [] (s.keep 1) := by
  have hname : nameLength s.rest = 1 + (cs.takeWhile isNameChar).length := by
    simp [nameLength, hs]
  have hdrop : s.rest.drop (nameLength s.rest) = cs.dropWhile isNameChar := by
    rw [hname, hs, Nat.add_comm, List.drop_succ_cons, drop_length_takeWhile]
  have hstep : s.Reads [] (s.keep (nameLength s.rest +
      runLength ' ' (s.rest.drop (nameLength s.rest)))) := by
    refine (Scanner.Step.hash hs rfl rfl rfl (.inr ?_)).reads
    rw [← List.drop_drop, hdrop]
    simpa only [runLength, drop_length_takeWhile] using h
  refine hstep.of_trans ?_
  rw [hdrop, hname, Nat.add_assoc, Scanner.keep_add]
  have hrest : (s.keep 1).rest =
      (cs.takeWhile isNameChar ++ (cs.dropWhile isNameChar).takeWhile (· == ' ')) ++
        (cs.dropWhile isNameChar).dropWhile (· == ' ') := by
    simp [hs]
  have hplain := Scanner.reads_plain hrest ?_
  · rwa [List.length_append] at hplain
  · intro c hc
    rcases List.mem_append.1 hc with hc | hc
    · have hc := List.all_eq_true.1 List.all_takeWhile c hc
      exact ⟨by rintro rfl; revert hc; decide, by rintro rfl; revert hc; decide⟩
    · have hc : c = ' ' := by simpa using List.all_eq_true.1 List.all_takeWhile c hc
      subst hc
      decide

/-- A closing brace in a run that is too short is read as text. -/
theorem Scanner.reads_brace {s : Scanner} {cs : List Char} (hs : s.rest = '}' :: cs)
    (h : runLength '}' s.rest < s.depth) (hopened : s.opened ≠ []) : s.Reads [] (s.keep 1) := by
  have hcount : runLength '}' s.rest = 1 + runLength '}' cs := by
    simp [runLength, hs, Nat.add_comm]
  have hstep : s.Reads [] (s.keep (1 + runLength '}' cs)) :=
    hcount ▸ (Scanner.Step.short hs rfl hopened h).reads
  refine hstep.of_trans ?_
  rw [Scanner.keep_add]
  have hrest : (s.keep 1).rest = cs := by simp [hs]
  cases cs with
  | nil => exact (Scanner.keep_zero (s.keep 1)).symm ▸ Scanner.Reads.refl _
  | cons c cs =>
    by_cases hc : c = '}'
    · subst hc
      refine (Scanner.Step.short hrest (by rw [hrest]) hopened ?_).reads
      exact Nat.lt_of_le_of_lt (by omega) h
    · rw [runLength_eq_zero (by simpa using hc), Scanner.keep_zero]
      exact Scanner.Reads.refl _

/-- **Text without long runs of braces is read as text**, in front of whatever bounds it. -/
theorem Scanner.reads_text {s : Scanner} {cs tail : List Char} (hs : s.rest = cs ++ tail)
    (hpos : 0 < s.depth) (hopen : NoRun s.depth '{' cs) (hclose : NoRun s.depth '}' cs)
    (ht : Bounds tail) : s.Reads [] (s.keep cs.length) := by
  induction cs generalizing s with
  | nil => exact s.keep_zero ▸ Scanner.Reads.refl s
  | cons c cs ih =>
    have hone : s.Reads [] (s.keep 1) := by
      by_cases hh : c = '#'
      · subst hh
        exact Scanner.reads_hash hs (hopen.tail.behind_name ht hpos)
      by_cases hb : c = '}'
      · subst hb
        have hlt := hclose.runLength_lt (List.suffix_refl _)
        rw [← runLength_append (ht.head?_ne (by decide) (by decide)), ← hs] at hlt
        refine Scanner.reads_brace hs hlt fun hnil => ?_
        have hdepth : s.depth = 1 := by simp [Scanner.depth, hnil]
        have hrun := runLength_pos hs
        omega
      · exact (Scanner.Step.char hs hh hb).reads
    have hrest : (s.keep 1).rest = cs ++ tail := by simp [hs]
    rw [List.length_cons, Nat.add_comm, Scanner.keep_add]
    exact hone.trans (ih hrest hpos hopen.tail hclose.tail)

/-! ## Arguments -/

theorem replicate_append_eq_cons {n : Nat} {c : Char} {cs : List Char} (h : 0 < n) :
    List.replicate n c ++ cs = c :: (List.replicate (n - 1) c ++ cs) := by
  rw [← List.cons_append, ← List.replicate_succ, Nat.sub_add_cancel h]

theorem runLength_replicate {c d : Char} (n : Nat) (cs : List Char) (h : d ≠ c) :
    runLength c (List.replicate n c ++ d :: cs) = n := by
  rw [runLength_append (by simpa using h)]
  simp [runLength]

/-- All open arguments were opened by some braces. -/
def Scanner.Braced (s : Scanner) : Prop := ∀ a ∈ s.opened, 0 < a.depth

theorem Scanner.Braced.depth_pos {s : Scanner} (h : s.Braced) : 0 < s.depth := by
  unfold Scanner.depth
  split
  · exact Nat.one_pos
  · next hs => exact h _ (by simp [hs])

theorem Scanner.Braced.congr {s next : Scanner} (h : s.Braced) (ho : next.opened = s.opened) :
    next.Braced := by rwa [Scanner.Braced, ho]

theorem Scanner.depth_congr {s next : Scanner} (h : next.opened = s.opened) :
    next.depth = s.depth := by rw [Scanner.depth, h, Scanner.depth]

/-- The braces at the front of the rest open an argument: their token, and the scanner inside. -/
def Scanner.opening (s : Scanner) : Token × Scanner := s.openArgument (runLength '{' s.rest)

theorem Scanner.opening_opened (s : Scanner) :
    s.opening.2.opened = ⟨runLength '{' s.rest, s.position⟩ :: s.opened :=
  Scanner.openArgument_opened s _

theorem Scanner.opening_pending (s : Scanner) : s.opening.2.pending = [] := by
  simp only [Scanner.opening, Scanner.openArgument]
  split <;> rfl

theorem Scanner.opening_fst (s : Scanner) : s.opening.1 = ⟨.argumentOpen,
    String.ofList (List.replicate (runLength '{' s.rest) '{'), s.position⟩ := by
  rw [Scanner.opening, Scanner.openArgument_fst, take_runLength]

/-- One space behind the braces is left out. -/
theorem Scanner.opening_rest {s : Scanner} {n : Nat} {cs : List Char}
    (h : s.rest = List.replicate n '{' ++ ' ' :: cs) : s.opening.2.rest = cs := by
  have hn : runLength '{' s.rest = n := by rw [h, runLength_replicate _ _ (by decide)]
  have hdrop : s.rest.drop n = ' ' :: cs := by simp [h]
  simp [Scanner.opening, hn, Scanner.openArgument, Scanner.skip, hdrop]

/-- Inside of an argument that some braces open. -/
theorem Scanner.Braced.opening {s : Scanner} (h : s.Braced) (hpos : 0 < runLength '{' s.rest) :
    s.opening.2.Braced := by
  intro a ha
  rw [Scanner.opening_opened] at ha
  rcases List.mem_cons.1 ha with rfl | ha
  · exact hpos
  · exact h a ha

/-- A name in front of braces that suffice for the argument around: it completes the text in front
    of it and begins an element, whose first argument the braces open. -/
theorem Scanner.reads_element {s : Scanner} {name cs : List Char} (hs : s.rest = '#' :: name ++ cs)
    (hname : ∀ c ∈ name, isNameChar c = true) (hcs : ∃ ds, cs = '{' :: ds)
    (hdepth : s.depth ≤ runLength '{' cs) :
    ∃ outside : Scanner, outside.rest = cs ∧ outside.pending = [] ∧ outside.opened = s.opened ∧
      s.Reads (textToken s.pendingPosition s.pending ++
          [⟨.elementName, String.ofList ('#' :: name), s.position⟩, outside.opening.1])
        outside.opening.2 := by
  obtain ⟨ds, rfl⟩ := hcs
  have hlen : nameLength s.rest = ('#' :: name).length := by
    have : (name ++ '{' :: ds).takeWhile isNameChar = name := by
      rw [List.takeWhile_append_of_pos hname,
        List.takeWhile_cons_of_neg (by decide : ¬ isNameChar '{' = true), List.append_nil]
    rw [nameLength, hs, List.cons_append, List.tail_cons, this, List.length_cons, Nat.add_comm]
  have hdrop : s.rest.drop (nameLength s.rest) = '{' :: ds := by
    rw [hlen, hs, List.drop_left]
  have htake : s.rest.take (nameLength s.rest) = '#' :: name := by
    rw [hlen, hs, List.take_left]
  have hspaces : runLength ' ' (s.rest.drop (nameLength s.rest)) = 0 := by
    rw [hdrop]
    exact runLength_eq_zero (by simp)
  have hstep := Scanner.Step.element (s := s) hs rfl hspaces.symm rfl
  rw [Nat.add_zero, hdrop, htake] at hstep
  refine ⟨s.skip (nameLength s.rest), hdrop, rfl, rfl, ?_⟩
  rw [Scanner.opening, Scanner.rest_skip, hdrop]
  exact (hstep (runLength_pos rfl) hdepth).reads

/-- The closing run of an argument that `n` braces opened, in front of `cs`, leads to `outside`.
    Braces that open right behind the run begin a further argument, if they suffice for the
    argument around. -/
structure Scanner.ClosesTo (s : Scanner) (n : Nat) (cs : List Char) (outer : List OpenArgument)
    (token : Token) (outside : Scanner) : Prop where
  kind : token.kind = .argumentClose
  text : token.text = String.ofList (List.replicate n '}')
  rest : outside.rest = cs
  pending : outside.pending = []
  opened : outside.opened = outer
  ends : runLength '{' cs < outside.depth →
    s.Reads (textToken s.pendingPosition s.pending ++ [token]) outside
  chains : 0 < runLength '{' cs → outside.depth ≤ runLength '{' cs →
    s.Reads (textToken s.pendingPosition s.pending ++ [token, outside.opening.1])
      outside.opening.2

/-- A space and the closing run of the innermost argument complete the text in front of them and
    leave the argument. -/
theorem Scanner.reads_close {s : Scanner} {a : OpenArgument} {outer : List OpenArgument}
    {cs : List Char} (hs : s.rest = ' ' :: (List.replicate a.depth '}' ++ cs))
    (ho : s.opened = a :: outer) (hbraced : s.Braced) (hcs : cs.head? ≠ some '}') :
    ∃ token outside, s.ClosesTo a.depth cs outer token outside := by
  have hpos : 0 < a.depth := hbraced a (by simp [ho])
  have hspace : s.Reads [] (s.keep 1) := (Scanner.Step.char hs (by decide) (by decide)).reads
  have hrest : (s.keep 1).rest = List.replicate a.depth '}' ++ cs := by simp [hs]
  have hbrace : (s.keep 1).rest = '}' :: (List.replicate (a.depth - 1) '}' ++ cs) := by
    rw [hrest, replicate_append_eq_cons hpos]
  have hcount : a.depth = runLength '}' (s.keep 1).rest := by
    rw [hrest, runLength_append hcs]
    simp [runLength]
  have hpending : dropSpace (s.keep 1).pending = s.pending := by simp [Scanner.keep, hs, dropSpace]
  have hclosed : closeArguments (s.keep 1).position a.depth (s.keep 1).opened =
      ([⟨.argumentClose, String.ofList (List.replicate a.depth '}'), (s.keep 1).position⟩], 0,
        outer) := by
    have hone : Closed (s.keep 1).position (a.depth + 0) (a :: outer) _ outer := .next .done
    exact ho ▸ hone.closeArguments_eq (ho ▸ hbraced)
  have hopened : (s.keep 1).opened ≠ [] := by simp [Scanner.keep, ho]
  have hdepth : (s.keep 1).depth ≤ a.depth := by simp [Scanner.depth, Scanner.keep, ho]
  have houtside : ((s.keep 1).outside a.depth outer).rest = cs := by
    rw [Scanner.outside, Scanner.rest_skip, hrest]
    simp
  refine ⟨⟨.argumentClose, String.ofList (List.replicate a.depth '}'), (s.keep 1).position⟩,
    (s.keep 1).outside a.depth outer, rfl, rfl, houtside, rfl, rfl, fun hlt => ?_,
    fun h0 hle => ?_⟩
  · have hstep := Scanner.Step.close hbrace hcount hopened hdepth hclosed
      (.inr (by rwa [houtside]))
    rw [hpending] at hstep
    exact hspace.trans hstep.reads
  · have hstep := Scanner.Step.chain hbrace hcount hopened hdepth hclosed (by rw [houtside])
      h0 hle
    rw [hpending, List.append_assoc, ← houtside] at hstep
    exact hspace.trans hstep.reads

end BraceMarkup
