/-
  The steps of the lexer by offsets.

  At every point a lexer by offsets stands where a scanner does: what is left
  begins at the cursor, the pending text is the slice in front of it, and the
  stack holds the open arguments.  From this every check it makes succeeds, and
  its passes are the steps and the faults of the scanner.

  * `OffsetLexer.Follows`: the lexer stands where a scanner does, which any
    lexer that is safe does (`OffsetLexer.Safe.exists_follows`);
  * `OffsetLexer.moved`: the cursor some characters further on, to which all
    loops of the lexer lead;
  * `OffsetLexer.Reaches`: tokens completed on the way to where a scanner
    stands, with one lemma for every part of a pass;
  * `OffsetLexer.Passes`, `OffsetLexer.Follows.pass`: **the passes are the steps
    of the scanner**, and no check fails in them.
-/
import BraceMarkup.Proofs.Token.Fault
import BraceMarkup.Proofs.Token.Layout
import BraceMarkup.Proofs.Token.Offsets
import BraceMarkup.Proofs.Token.Reading

namespace BraceMarkup

namespace OffsetLexer

variable {c d : OffsetLexer} {s next : Scanner} {tokens later : List Token}

/-! ## Where a scanner stands -/

/-- The lexer stands where a scanner does. -/
structure Follows (c : OffsetLexer) (s : Scanner) : Prop where
  rest : s.rest = c.chars.drop c.pos
  position : s.position = c.position
  pending : s.pending.reverse = (c.chars.take c.pos).drop c.textStart
  pendingPosition : s.pendingPosition = c.textPosition
  opened : ∃ p, c.arguments = s.opened ++ [⟨1, p⟩]
  textStart_le : c.textStart ≤ c.pos
  pos_le : c.pos ≤ c.chars.length
  depths : DepthsOrdered c.arguments

namespace Follows

theorem safe (h : c.Follows s) : c.Safe :=
  ⟨h.textStart_le, h.pos_le, ⟨s.opened, h.opened⟩, h.depths⟩

theorem ofString (source : String) :
    (OffsetLexer.ofString source).Follows (.ofList (sourceChars source)) :=
  ⟨rfl, rfl, rfl, rfl, ⟨.start, rfl⟩, Nat.le_refl _, Nat.zero_le _, List.pairwise_singleton _ _⟩

theorem peek (h : c.Follows s) : c.peek = s.rest.head? := by
  rw [h.rest, List.head?_drop, OffsetLexer.peek]

theorem depth (h : c.Follows s) : c.depth = s.depth := by
  obtain ⟨p, hp⟩ := h.opened
  unfold OffsetLexer.depth Scanner.depth
  rw [hp]
  cases s.opened <;> rfl

/-- The innermost entry of the stack is the deepest. -/
theorem le_depth (h : c.Follows s) {a : OpenArgument} (ha : a ∈ c.arguments) :
    a.depth ≤ c.depth := by
  have hdepths := h.depths
  unfold OffsetLexer.depth
  cases hc : c.arguments with
  | nil => exact absurd ha (hc ▸ List.not_mem_nil)
  | cons innermost outer =>
    rw [hc] at ha hdepths
    rcases List.mem_cons.1 ha with rfl | ha
    · exact Nat.le_refl _
    · exact List.rel_of_pairwise_cons hdepths ha

theorem isTopLevel_iff (h : c.Follows s) : c.isTopLevel = true ↔ s.opened = [] := by
  obtain ⟨p, hp⟩ := h.opened
  simp [OffsetLexer.isTopLevel, hp]

theorem runLength? (h : c.Follows s) (char : Char) :
    c.runLength? char = some (runLength char s.rest) := by
  rw [runLength?_eq h.pos_le, h.rest]

theorem length_rest (h : c.Follows s) : s.rest.length = c.chars.length - c.pos := by
  rw [h.rest, List.length_drop]

end Follows

/-- A lexer that is safe stands where some scanner does. -/
theorem Safe.exists_follows (h : c.Safe) : ∃ s, c.Follows s := by
  obtain ⟨inner, p, hp⟩ := h.bottom
  refine ⟨⟨c.chars.drop c.pos, c.position, ((c.chars.take c.pos).drop c.textStart).reverse,
    c.textPosition, inner⟩, ?_⟩
  exact ⟨rfl, rfl, List.reverse_reverse _, rfl, ⟨p, hp⟩, h.textStart_le, h.pos_le, h.depths⟩

/-! ## Moving the cursor -/

/-- The cursor some characters further on. -/
def moved (c : OffsetLexer) (count : Nat) : OffsetLexer :=
  { c with
    pos := c.pos + count
    position := c.position.advanceList ((c.chars.drop c.pos).take count) }

theorem moved_add (c : OffsetLexer) (m n : Nat) : c.moved (m + n) = (c.moved m).moved n := by
  have hposition : c.position.advanceList ((c.chars.drop c.pos).take (m + n)) =
      (c.position.advanceList ((c.chars.drop c.pos).take m)).advanceList
        ((c.chars.drop (c.pos + m)).take n) := by
    rw [← Position.advanceList_append, List.take_add, List.drop_drop]
  simp only [moved, hposition, Nat.add_assoc]

theorem advance_eq (h : c.pos < c.chars.length) : c.advance = c.moved 1 := by
  have hpeek : c.peek = some c.chars[c.pos] := List.getElem?_eq_getElem h
  have htake : (c.chars.drop c.pos).take 1 = [c.chars[c.pos]] := by
    rw [List.drop_eq_getElem_cons h, List.take_succ_cons, List.take_zero]
  rw [advance_of_peek hpeek, moved, htake]
  rfl

theorem advanceBy_eq {count : Nat} (h : c.pos + count ≤ c.chars.length) :
    c.advanceBy count = c.moved count := by
  induction count generalizing c with
  | zero => rfl
  | succ count ih =>
    rw [advanceBy, advance_eq (by omega), Nat.add_comm, moved_add]
    exact ih (by simp only [moved]; omega)

theorem advanceWhile_eq (p : Char → Bool) (c : OffsetLexer) :
    c.advanceWhile p = c.moved ((c.chars.drop c.pos).takeWhile p).length := by
  fun_induction advanceWhile p c with
  | case1 c hpeek =>
    have hdrop : c.chars.drop c.pos = [] :=
      List.drop_eq_nil_of_le (List.getElem?_eq_none_iff.1 hpeek)
    rw [hdrop]
    rfl
  | case2 c char hpeek hp ih =>
    obtain ⟨cs, hcs⟩ := drop_of_peek hpeek
    have hrest : (c.moved 1).chars.drop (c.moved 1).pos = cs := by
      rw [moved, ← List.drop_drop, hcs]
      rfl
    rw [advance_eq (pos_lt_of_peek hpeek), hrest, ← moved_add] at ih
    rw [advance_eq (pos_lt_of_peek hpeek), ih, hcs, List.takeWhile_cons_of_pos hp,
      List.length_cons, Nat.add_comm]
  | case3 c char hpeek hp =>
    obtain ⟨cs, hcs⟩ := drop_of_peek hpeek
    rw [hcs, List.takeWhile_cons_of_neg hp]
    rfl

/-- The scanner keeps the characters that the cursor moves over. -/
theorem Follows.moved (h : c.Follows s) {count : Nat} (hcount : count ≤ s.rest.length) :
    (c.moved count).Follows (s.keep count) where
  rest := by rw [Scanner.rest_keep, h.rest, List.drop_drop]; rfl
  position := by simp only [Scanner.keep, OffsetLexer.moved, h.position, h.rest]
  pending := by
    have hlength : c.textStart ≤ (c.chars.take c.pos).length := by
      rw [List.length_take_of_le h.pos_le]
      exact h.textStart_le
    simp only [Scanner.keep, OffsetLexer.moved, List.reverse_append, List.reverse_reverse]
    rw [h.pending, h.rest, List.take_add, List.drop_append_of_le_length hlength]
  pendingPosition := h.pendingPosition
  opened := h.opened
  textStart_le := Nat.le_trans h.textStart_le (Nat.le_add_right _ _)
  pos_le := by
    have := h.length_rest
    have := h.pos_le
    simp only [OffsetLexer.moved]
    omega
  depths := h.depths

/-- Other arguments are open. -/
theorem Follows.reopen (h : c.Follows s) {arguments opened : List OpenArgument} {p : Position}
    (harguments : arguments = opened ++ [⟨1, p⟩]) (hdepths : DepthsOrdered arguments) :
    { c with arguments }.Follows { s with opened } :=
  ⟨h.rest, h.position, h.pending, h.pendingPosition, ⟨p, harguments⟩, h.textStart_le, h.pos_le,
    hdepths⟩

/-- Other tokens are queued. -/
theorem Follows.requeue (h : c.Follows s) (queue : List Token) (done : Bool) :
    { c with queue, done }.Follows s :=
  ⟨h.rest, h.position, h.pending, h.pendingPosition, h.opened, h.textStart_le, h.pos_le, h.depths⟩

/-- The pending text starts anew. -/
theorem Follows.mark (h : c.Follows s) :
    c.mark.Follows { s with pending := [], pendingPosition := s.position } where
  rest := h.rest
  position := h.position
  pending := (List.drop_eq_nil_of_le (List.length_take_le _ _)).symm
  pendingPosition := h.position
  opened := h.opened
  textStart_le := Nat.le_refl _
  pos_le := h.pos_le
  depths := h.depths

/-! ## The parts of a pass -/

/-- Tokens are completed on the way to where a scanner stands. -/
structure Reaches (c : OffsetLexer) (tokens : List Token) (d : OffsetLexer) (s : Scanner) :
    Prop where
  follows : d.Follows s
  queue : d.queue = c.queue ++ tokens
  done : d.done = c.done

theorem Follows.reaches_moved (h : c.Follows s) {count : Nat} (hcount : count ≤ s.rest.length) :
    c.Reaches [] (c.moved count) (s.keep count) :=
  ⟨h.moved hcount, (List.append_nil _).symm, rfl⟩

theorem slice?_eq {chars : List Char} {start stop : Nat} (h : start ≤ stop)
    (hstop : stop ≤ chars.length) : slice? chars start stop = some ((chars.take stop).drop start) :=
  if_pos ⟨h, hstop⟩

/-- The characters that the cursor moves over. -/
theorem Follows.slice?_moved (h : c.Follows s) {count : Nat} (hcount : count ≤ s.rest.length) :
    slice? c.chars c.pos (c.pos + count) = some (s.rest.take count) := by
  have hle : c.pos + count ≤ c.chars.length := (h.moved hcount).pos_le
  rw [slice?_eq (Nat.le_add_right _ _) hle, h.rest, List.take_drop]

theorem flushText_eq {stop : Nat} (hstop : stop ≤ c.chars.length) :
    c.flushText stop = some { c with
      queue := c.queue ++
        textToken c.textPosition ((c.chars.take stop).drop c.textStart).reverse } := by
  unfold flushText textToken
  by_cases hlt : c.textStart < stop
  · have hne : ((c.chars.take stop).drop c.textStart).reverse.isEmpty = false := by
      simp
      omega
    rw [if_pos hlt, slice?_eq (Nat.le_of_lt hlt) hstop, hne, List.reverse_reverse]
    rfl
  · have hnil : (c.chars.take stop).drop c.textStart = [] :=
      List.drop_eq_nil_of_le (Nat.le_trans (List.length_take_le _ _) (Nat.not_lt.1 hlt))
    rw [if_neg hlt, hnil]
    simp

/-- Completes the pending text, or the first part of it. -/
theorem Follows.flushText (h : c.Follows s) {stop : Nat} {pending : List Char}
    (hstop : stop ≤ c.chars.length)
    (hpending : (c.chars.take stop).drop c.textStart = pending.reverse) :
    c.flushText stop =
      some { c with queue := c.queue ++ textToken s.pendingPosition pending } := by
  rw [flushText_eq hstop, hpending, List.reverse_reverse, h.pendingPosition]

theorem Follows.advanceBy_eq (h : c.Follows s) {count : Nat} (hcount : count ≤ s.rest.length) :
    c.advanceBy count = c.moved count := by
  have := h.length_rest
  have := h.pos_le
  exact OffsetLexer.advanceBy_eq (by omega)

/-- An argument that some braces open. -/
theorem Follows.openArgument (h : c.Follows s) {braces : Nat} (hbraces : braces ≤ s.rest.length)
    (hdepth : s.depth ≤ braces) :
    ∃ d, c.openArgument braces = some d ∧
      c.Reaches [(s.openArgument braces).1] d (s.openArgument braces).2 := by
  obtain ⟨p, hp⟩ := h.opened
  have hslice : slice? (c.moved braces).chars c.pos (c.moved braces).pos =
      some (s.rest.take braces) := h.slice?_moved hbraces
  have harguments : ⟨braces, c.position⟩ :: c.arguments =
      (⟨braces, s.position⟩ :: s.opened) ++ [⟨1, p⟩] := by rw [hp, h.position]; rfl
  have hordered : DepthsOrdered (⟨braces, c.position⟩ :: c.arguments) := by
    refine List.pairwise_cons.2 ⟨fun a ha => ?_, h.depths⟩
    exact Nat.le_trans (h.le_depth ha) (h.depth ▸ hdepth)
  let inside : OffsetLexer := { c.moved braces with
    arguments := ⟨braces, c.position⟩ :: c.arguments
    queue := c.queue ++ [(s.openArgument braces).1] }
  have hinside : inside.Follows { s.keep braces with opened := ⟨braces, s.position⟩ :: s.opened } :=
    ((h.moved hbraces).requeue inside.queue c.done).reopen harguments hordered
  have hpeek : inside.peek = (s.rest.drop braces).head? := hinside.peek
  have hopen : c.openArgument braces =
      some (if inside.peek = some ' ' then inside.advance else inside).mark := by
    simp only [OffsetLexer.openArgument, h.advanceBy_eq hbraces, hslice, Option.bind_eq_bind,
      Option.bind_some, Option.pure_def]
    simp only [inside, Scanner.openArgument, h.position]
    rfl
  rw [hopen]
  by_cases hspace : (s.rest.drop braces).head? = some ' '
  · obtain ⟨cs, hcs⟩ := List.head?_eq_some_iff.1 hspace
    have hlength : 1 ≤ (s.rest.drop braces).length := by simp [hcs]
    have hadvance : inside.advance = inside.moved 1 := hinside.advanceBy_eq hlength
    have hsnd : (s.openArgument braces).2 =
        (s.outside braces (⟨braces, s.position⟩ :: s.opened)).skip 1 := by
      rw [Scanner.openArgument_snd]
      exact if_pos hspace
    rw [if_pos (hpeek.trans hspace), hadvance, hsnd]
    exact ⟨_, rfl, (hinside.moved hlength).mark, rfl, rfl⟩
  · have hsnd : (s.openArgument braces).2 =
        s.outside braces (⟨braces, s.position⟩ :: s.opened) := by
      rw [Scanner.openArgument_snd]
      exact if_neg hspace
    rw [if_neg (hpeek.symm ▸ hspace), hsnd]
    exact ⟨_, rfl, hinside.mark, rfl, rfl⟩

/-- A further argument of the same element, if there are braces enough for it. -/
theorem Follows.openNext (h : c.Follows s) {braces : Nat}
    (hbraces : braces = runLength '{' s.rest) :
    ∃ d, c.openNext = some d ∧
      ((braces = 0 ∨ braces < s.depth) ∧ d = c ∨
        0 < braces ∧ s.depth ≤ braces ∧
          c.Reaches [(s.openArgument braces).1] d (s.openArgument braces).2) := by
  unfold OffsetLexer.openNext
  simp only [h.runLength? '{', h.depth, Option.bind_eq_bind, Option.bind_some, ← hbraces]
  by_cases hlong : 0 < braces ∧ s.depth ≤ braces
  · rw [if_pos hlong]
    obtain ⟨d, hd, hreach⟩ := h.openArgument (hbraces ▸ runLength_le _ _) hlong.2
    exact ⟨d, hd, .inr ⟨hlong.1, hlong.2, hreach⟩⟩
  · rw [if_neg hlong]
    exact ⟨c, rfl, .inl ⟨by omega, rfl⟩⟩

theorem closeArguments_of_short {remaining : Nat} (h : c.isTopLevel = true ∨ remaining < c.depth) :
    c.closeArguments remaining = some (remaining, c) := by
  fun_cases OffsetLexer.closeArguments c remaining with
  | case1 innermost next outer hc hle =>
    simp only [isTopLevel, depth, hc, List.length_cons, decide_eq_true_eq] at h
    omega
  | case2 => rfl
  | case3 => rfl

theorem closeArguments_of_le {remaining : Nat} {innermost : OpenArgument}
    {outer : List OpenArgument} (h : c.arguments = innermost :: outer) (hne : outer ≠ [])
    (hle : innermost.depth ≤ remaining) :
    c.closeArguments remaining = (do
      let closed := c.advanceBy innermost.depth
      let text ← slice? closed.chars c.pos closed.pos
      let closed := closed.push .argumentClose text c.position
      let left ← subtract? remaining innermost.depth
      closeArguments { closed with arguments := outer } left) := by
  fun_cases OffsetLexer.closeArguments c remaining with
  | case1 _ _ _ hc _ =>
    cases hc.symm.trans h
    rfl
  | case2 _ _ _ hc hshort =>
    cases hc.symm.trans h
    exact absurd hle hshort
  | case3 hc =>
    obtain ⟨next, rest, rfl⟩ := List.exists_cons_of_ne_nil hne
    exact absurd h (hc _ _ _)

theorem take_of_le_runLength {char : Char} {cs : List Char} {count : Nat}
    (h : count ≤ runLength char cs) : cs.take count = List.replicate count char := by
  rw [← Nat.min_eq_left h, ← List.take_take, take_runLength, List.take_replicate]

theorem runLength_drop {char : Char} {cs : List Char} {count : Nat}
    (h : count ≤ runLength char cs) :
    runLength char (cs.drop count) = runLength char cs - count := by
  induction count generalizing cs with
  | zero => rfl
  | succ count ih =>
    cases cs with
    | nil => exact absurd h (Nat.not_succ_le_zero _)
    | cons d ds =>
      have hd : d = char := by
        by_contra hne
        rw [runLength_eq_zero (by simpa using hne)] at h
        exact absurd h (Nat.not_succ_le_zero _)
      have hcons : runLength char (d :: ds) = runLength char ds + 1 := by simp [runLength, hd]
      rw [hcons] at h ⊢
      rw [List.drop_succ_cons, ih (Nat.le_of_succ_le_succ h), Nat.add_sub_add_right]

/-- The arguments that a closing run closes. -/
theorem Follows.closeArguments (h : c.Follows s) {remaining left : Nat} {closed : List Token}
    {opened : List OpenArgument} (hremaining : remaining ≤ runLength '}' s.rest)
    (hclosed : BraceMarkup.closeArguments s.position remaining s.opened = (closed, left, opened)) :
    ∃ d, c.closeArguments remaining = some (left, d) ∧ left ≤ remaining ∧
      c.Reaches closed d { s.keep (remaining - left) with opened } := by
  have hnone : ∀ n, { s.keep (n - n) with opened := s.opened } = s := fun n => by
    rw [Nat.sub_self, Scanner.keep_zero]
  generalize hstack : s.opened = stack at hclosed hnone
  induction stack generalizing c s remaining closed with
  | nil =>
    obtain ⟨rfl, rfl, rfl⟩ := hclosed
    refine ⟨c, closeArguments_of_short (.inl (h.isTopLevel_iff.2 hstack)), Nat.le_refl _, ?_⟩
    exact ⟨(hnone _).symm ▸ h, (List.append_nil _).symm, rfl⟩
  | cons innermost outer ih =>
    obtain ⟨p, hp⟩ := h.opened
    rw [hstack] at hp
    by_cases hle : innermost.depth ≤ remaining
    · rcases hrest : BraceMarkup.closeArguments
        (s.position.advanceList (List.replicate innermost.depth '}'))
        (remaining - innermost.depth) outer with ⟨rest, left', opened'⟩
      simp only [BraceMarkup.closeArguments, if_pos hle, hrest] at hclosed
      cases hclosed
      have hdepth : innermost.depth ≤ runLength '}' s.rest := Nat.le_trans hle hremaining
      have hlength : innermost.depth ≤ s.rest.length := Nat.le_trans hdepth (runLength_le _ _)
      have htake := take_of_le_runLength hdepth
      let token : Token :=
        ⟨.argumentClose, String.ofList (List.replicate innermost.depth '}'), s.position⟩
      let inside : OffsetLexer := { c.moved innermost.depth with
        arguments := outer ++ [⟨1, p⟩]
        queue := c.queue ++ [token] }
      have hinside : inside.Follows { s.keep innermost.depth with opened := outer } :=
        ((h.moved hlength).requeue inside.queue c.done).reopen rfl
          (List.Pairwise.of_cons (hp ▸ h.depths))
      have hrun : remaining - innermost.depth ≤ runLength '}' (s.rest.drop innermost.depth) := by
        rw [runLength_drop hdepth]
        omega
      rw [← htake] at hrest
      obtain ⟨d, hd, hleft, hreach⟩ := ih hinside hrun rfl hrest
        fun n => by rw [Nat.sub_self, Scanner.keep_zero]
      have hslice : slice? (c.moved innermost.depth).chars c.pos (c.moved innermost.depth).pos =
          some (s.rest.take innermost.depth) := h.slice?_moved hlength
      have hclose : c.closeArguments remaining =
          inside.closeArguments (remaining - innermost.depth) := by
        rw [closeArguments_of_le hp (by simp) hle, h.advanceBy_eq hlength]
        simp only [hslice, htake, subtract?, if_pos hle, Option.bind_eq_bind, Option.bind_some]
        simp only [inside, token, h.position]
        rfl
      have hsplit : remaining - left = innermost.depth + (remaining - innermost.depth - left) := by
        omega
      refine ⟨d, hclose.trans hd, by omega, ?_⟩
      rw [hsplit, Scanner.keep_add]
      exact ⟨hreach.follows, by rw [hreach.queue, List.append_assoc]; rfl, hreach.done⟩
    · simp only [BraceMarkup.closeArguments, if_neg hle, Prod.mk.injEq] at hclosed
      obtain ⟨rfl, rfl, rfl⟩ := hclosed
      have hshort : remaining < c.depth := by
        rw [h.depth, Scanner.depth, hstack]
        exact Nat.not_le.1 hle
      refine ⟨c, closeArguments_of_short (.inr hshort), Nat.le_refl _, ?_⟩
      exact ⟨(hnone _).symm ▸ h, (List.append_nil _).symm, rfl⟩

/-- Where the pending text ends in front of a closing run. -/
theorem Follows.textEnd? (h : c.Follows s) :
    ∃ stop, c.textEnd? = some stop ∧ stop ≤ c.pos ∧
      (c.chars.take stop).drop c.textStart = (dropSpace s.pending).reverse := by
  unfold OffsetLexer.textEnd?
  by_cases hlt : c.textStart < c.pos
  · obtain ⟨k, hk⟩ := Nat.exists_eq_succ_of_ne_zero (Nat.ne_zero_of_lt hlt)
    have hpos : k < c.chars.length := by have := h.pos_le; omega
    have hlast : (c.chars.take c.pos).drop c.textStart =
        (c.chars.take k).drop c.textStart ++ [c.chars[k]] := by
      have hle : c.textStart ≤ (c.chars.take k).length := by rw [List.length_take]; omega
      rw [hk, Nat.succ_eq_add_one, List.take_succ_eq_append_getElem hpos,
        List.drop_append_of_le_length hle]
    have hpending : s.pending = c.chars[k] :: ((c.chars.take k).drop c.textStart).reverse := by
      rw [← List.reverse_inj, h.pending, hlast]
      simp
    have hbefore : subtract? c.pos 1 = some k := by simp [subtract?, hk]
    have hget : c.chars[k]? = some c.chars[k] := List.getElem?_eq_getElem hpos
    simp only [if_pos hlt, hbefore, hget, Option.bind_eq_bind, Option.bind_some]
    by_cases hspace : c.chars[k] = ' '
    · refine ⟨k, if_pos hspace, by omega, ?_⟩
      rw [hpending, hspace, dropSpace, List.reverse_reverse]
    · refine ⟨c.pos, if_neg hspace, Nat.le_refl _, ?_⟩
      rw [← h.pending]
      rcases dropSpace_cases s.pending with heq | ⟨hsame, -⟩
      · exact absurd (List.cons.inj (hpending.symm.trans heq)).1 hspace
      · rw [hsame]
  · have hnil : s.pending = [] := by
      rw [← List.reverse_eq_nil_iff, h.pending]
      exact List.drop_eq_nil_of_le (Nat.le_trans (List.length_take_le _ _) (Nat.not_lt.1 hlt))
    refine ⟨c.pos, if_neg hlt, Nat.le_refl _, ?_⟩
    rw [← h.pending, hnil]
    rfl

/-! ## Passes -/

/-- What a pass makes of a step. -/
inductive Passes (c : OffsetLexer) :
    Except LexError (List Token × Option Scanner) → OffsetLexer → Pass → Prop
  | goesOn {ts : List Token} {after : OffsetLexer} {t : Scanner} : c.Reaches ts after t →
      Passes c (.ok (ts, some t)) after .goesOn
  | ends {ts : List Token} {after : OffsetLexer} : after.Safe → after.queue = c.queue ++ ts →
      after.done = true → Passes c (.ok (ts, none)) after .ends
  | fails {e : LexError} {after : OffsetLexer} : after.Safe → Passes c (.error e) after (.fails e)

theorem Passes.of_step (hstep : s.Step tokens next) (h : c.Reaches tokens d next) :
    Passes c s.step d .goesOn := Scanner.step_eq_ok_iff.2 hstep ▸ .goesOn h

theorem Passes.of_fault {e : LexError} (hfault : s.Fault e) (h : d.Safe) :
    Passes c s.step d (.fails e) := Scanner.step_eq_error_iff.2 hfault ▸ .fails h

theorem finish_of_topLevel (h : c.isTopLevel = true) (hflush : c.flushText c.pos = some d) :
    c.finish = some ({ d.push .endOfInput [] c.position with done := true }, none) := by
  fun_cases OffsetLexer.finish c with
  | case1 _ _ _ hc => simp [isTopLevel, hc] at h
  | case2 => rw [hflush]; rfl

theorem finish_of_open {innermost : OpenArgument} {outer : List OpenArgument}
    (h : c.arguments = innermost :: outer) (hne : outer ≠ []) :
    c.finish = some (c, some ⟨.unterminatedArgument innermost.depth, innermost.position⟩) := by
  fun_cases OffsetLexer.finish c with
  | case1 _ _ _ hc => cases hc.symm.trans h; rfl
  | case2 hc =>
    obtain ⟨next, rest, rfl⟩ := List.exists_cons_of_ne_nil hne
    exact absurd h (hc _ _ _)

/-- The end of the text. -/
theorem Follows.finish (h : c.Follows s) (hs : s.rest = []) :
    ∃ d fault, c.finish = some (d, fault) ∧ Passes c s.step d (.ofEnd fault) := by
  cases ho : s.opened with
  | nil =>
    have hstep : s.step = .ok (textToken s.pendingPosition s.pending ++
        [⟨.endOfInput, "", s.position⟩], none) := by
      rw [Scanner.step_of_nil hs, Scanner.finish, ho]
      rfl
    have hfinish := finish_of_topLevel (h.isTopLevel_iff.2 ho) (h.flushText h.pos_le h.pending.symm)
    refine ⟨_, none, hfinish, hstep ▸ .ends (h.requeue _ true).safe ?_ rfl⟩
    simp only [push, ← h.position, List.append_assoc]
  | cons innermost outer =>
    obtain ⟨p, hp⟩ := h.opened
    rw [ho] at hp
    exact ⟨c, _, finish_of_open hp (by simp), .of_fault (.unterminated hs ho) h.safe⟩

/-- A name, and any spaces behind it. -/
theorem Follows.advanceWhile_name {cs : List Char} (h : c.Follows s) (hs : s.rest = '#' :: cs) :
    c.advance.advanceWhile isNameChar = c.moved (nameLength s.rest) ∧
      (c.moved (nameLength s.rest)).advanceWhile (· == ' ') =
        c.moved (nameLength s.rest + runLength ' ' (s.rest.drop (nameLength s.rest))) := by
  have hlength : 1 ≤ s.rest.length := by simp [hs]
  have hadvance : c.advance = c.moved 1 := h.advanceBy_eq hlength
  -- the loops look at what is left behind the `#`, and behind the name
  have htail : (c.moved 1).chars.drop (c.moved 1).pos = s.rest.tail := by
    rw [OffsetLexer.moved, ← List.drop_drop, ← h.rest, List.drop_one]
  have hbehind : (c.moved (nameLength s.rest)).chars.drop (c.moved (nameLength s.rest)).pos =
      s.rest.drop (nameLength s.rest) := by
    rw [OffsetLexer.moved, ← List.drop_drop, ← h.rest]
  constructor
  · rw [hadvance, advanceWhile_eq, htail, ← moved_add, nameLength]
  · rw [advanceWhile_eq, hbehind, ← moved_add, runLength]

/-- Reading on from a `#`. -/
theorem Follows.scanElement {cs : List Char} (h : c.Follows s) (hs : s.rest = '#' :: cs) :
    ∃ d, c.scanElement = some d ∧ Passes c s.step d .goesOn := by
  obtain ⟨hnamed, hspaced⟩ := h.advanceWhile_name hs
  have hname := nameLength_le hs
  have hlength : nameLength s.rest + runLength ' ' (s.rest.drop (nameLength s.rest)) ≤
      s.rest.length := by
    have := runLength_le ' ' (s.rest.drop (nameLength s.rest))
    rw [List.length_drop] at this
    omega
  generalize hk : nameLength s.rest + runLength ' ' (s.rest.drop (nameLength s.rest)) = k
    at hspaced hlength
  have hmoved := h.moved hlength
  have hbraces : (c.moved k).runLength? '{' = some (runLength '{' (s.rest.drop k)) :=
    hmoved.runLength? '{'
  have hdepth : (c.moved k).depth = s.depth := hmoved.depth
  unfold OffsetLexer.scanElement
  simp only [hnamed, hspaced, hbraces, hdepth, Option.bind_eq_bind, Option.bind_some]
  by_cases hshort : runLength '{' (s.rest.drop k) = 0 ∨ runLength '{' (s.rest.drop k) < s.depth
  · rw [if_pos hshort]
    subst hk
    exact ⟨_, rfl, .of_step (.hash hs rfl rfl rfl hshort) (h.reaches_moved hlength)⟩
  · rw [if_neg hshort]
    have hpos : 0 < runLength '{' (s.rest.drop k) := by omega
    have hle : s.depth ≤ runLength '{' (s.rest.drop k) := by omega
    have hflush : (c.moved k).flushText c.pos = some { c.moved k with
        queue := c.queue ++ textToken s.pendingPosition s.pending } :=
      hmoved.flushText h.pos_le h.pending.symm
    have hslice : slice? c.chars c.pos (c.moved (nameLength s.rest)).pos =
        some (s.rest.take (nameLength s.rest)) := h.slice?_moved hname
    let named : OffsetLexer := { c.moved k with
      queue := c.queue ++ textToken s.pendingPosition s.pending ++
        [⟨.elementName, String.ofList (s.rest.take (nameLength s.rest)), s.position⟩] }
    have hfollows : named.Follows (s.keep k) := hmoved.requeue named.queue c.done
    obtain ⟨d, hd, hreach⟩ := hfollows.openArgument (runLength_le '{' _) hle
    subst hk
    refine ⟨d, ?_, .of_step (.element hs rfl rfl rfl hpos hle) ⟨hreach.follows, ?_, hreach.done⟩⟩
    · rw [← hd, hflush]
      simp only [named, h.position]
      exact congrArg (Option.bind · _) hslice
    · rw [hreach.queue]
      simp only [named, List.append_assoc]
      rfl

/-- Reading on from a closing brace. -/
theorem Follows.scanClosing {cs : List Char} (h : c.Follows s) (hs : s.rest = '}' :: cs) :
    ∃ d fault, c.scanClosing = some (d, fault) ∧ Passes c s.step d (.ofFault fault) := by
  have hlength : runLength '}' s.rest ≤ s.rest.length := runLength_le _ _
  unfold OffsetLexer.scanClosing
  simp only [h.runLength? '}', Option.bind_eq_bind, Option.bind_some]
  by_cases ho : s.opened = []
  · rw [if_pos (h.isTopLevel_iff.2 ho), ← h.position]
    exact ⟨c, _, rfl, .of_fault (.stray hs rfl ho) h.safe⟩
  rw [if_neg (mt h.isTopLevel_iff.1 ho), h.depth]
  by_cases hshort : runLength '}' s.rest < s.depth
  · rw [if_pos hshort, h.advanceBy_eq hlength]
    exact ⟨_, none, rfl, .of_step (.short hs rfl ho hshort) (h.reaches_moved hlength)⟩
  rw [if_neg hshort]
  have hdepth : s.depth ≤ runLength '}' s.rest := Nat.not_lt.1 hshort
  obtain ⟨stop, hstop, hle, htext⟩ := h.textEnd?
  have hflush := h.flushText (Nat.le_trans hle h.pos_le) htext
  let flushed : OffsetLexer := { c with
    queue := c.queue ++ textToken s.pendingPosition (dropSpace s.pending) }
  have hflushed : flushed.Follows s := h.requeue flushed.queue c.done
  rcases hclosed : BraceMarkup.closeArguments s.position (runLength '}' s.rest) s.opened with
    ⟨closed, left, opened⟩
  obtain ⟨d, hd, hleft, hreach⟩ := hflushed.closeArguments (Nat.le_refl _) hclosed
  have hd : { c with
      queue := c.queue ++ textToken s.pendingPosition (dropSpace s.pending) }.closeArguments
        (runLength '}' s.rest) = some (left, d) := hd
  simp only [hstop, hflush, hd, Option.bind_some]
  -- a fault leaves the lexer in the middle of the run, with some of the arguments closed
  by_cases hexcess : 0 < left
  · have hposition : d.position =
        s.position.advanceList (List.replicate (runLength '}' s.rest - left) '}') := by
      rw [← take_of_le_runLength (Nat.sub_le _ _)]
      exact hreach.follows.position.symm
    rw [if_pos hexcess, hposition]
    exact ⟨d, _, rfl, .of_fault (.excess hs rfl ho hdepth hclosed hexcess) hreach.follows.safe⟩
  rw [if_neg hexcess]
  obtain rfl : left = 0 := Nat.eq_zero_of_not_pos hexcess
  have houtside : d.mark.Follows (s.outside (runLength '}' s.rest) opened) := hreach.follows.mark
  have hqueue : d.mark.queue =
      c.queue ++ (textToken s.pendingPosition (dropSpace s.pending) ++ closed) := by
    rw [← List.append_assoc]
    exact hreach.queue
  obtain ⟨e, he, hnext⟩ := houtside.openNext rfl
  refine ⟨e, none, by rw [he]; rfl, ?_⟩
  rcases hnext with ⟨hfew, rfl⟩ | ⟨hpos, hmany, hopen⟩
  · exact .of_step (.close hs rfl ho hdepth hclosed hfew) ⟨houtside, hqueue, hreach.done⟩
  · refine .of_step (.chain hs rfl ho hdepth hclosed rfl hpos hmany)
      ⟨hopen.follows, ?_, hopen.done.trans hreach.done⟩
    simp only [hopen.queue, hqueue, List.append_assoc]

/-- **The passes are the steps of the scanner.** -/
theorem Follows.pass (h : c.Follows s) :
    ∃ d result, c.pass = some (d, result) ∧ Passes c s.step d result := by
  have hpeek := h.peek
  cases hs : s.rest with
  | nil =>
    obtain ⟨d, fault, hd, hp⟩ := h.finish hs
    refine ⟨d, _, ?_, hp⟩
    rw [OffsetLexer.pass, hpeek, hs, List.head?_nil, hd]
    rfl
  | cons char cs =>
    rw [hs, List.head?_cons] at hpeek
    by_cases hhash : char = '#'
    · subst hhash
      obtain ⟨d, hd, hp⟩ := h.scanElement hs
      refine ⟨d, _, ?_, hp⟩
      rw [OffsetLexer.pass, hpeek, hd]
      rfl
    by_cases hbrace : char = '}'
    · subst hbrace
      obtain ⟨d, fault, hd, hp⟩ := h.scanClosing hs
      refine ⟨d, _, ?_, hp⟩
      rw [OffsetLexer.pass, hpeek, hd]
      rfl
    · have hlength : 1 ≤ s.rest.length := by simp [hs]
      have hadvance : c.advance = c.moved 1 := h.advanceBy_eq hlength
      refine ⟨c.moved 1, .goesOn, ?_, .of_step (.char hs hhash hbrace) (h.reaches_moved hlength)⟩
      rw [← hadvance]
      unfold OffsetLexer.pass
      rw [hpeek]
      split <;> simp_all

end OffsetLexer

end BraceMarkup
