/-
  A lexer by offsets.

  A lexer can keep all characters of a text and say where it stands by offsets:
  the cursor, and where the pending text starts.  Then every read is at an
  index, or of a slice between two indices, and what is left of a closing run is
  a difference.  Here each of these is checked, and a check that fails ends the
  computation without any result.

  * `OffsetLexer`: the text, the offsets, and a stack of arguments whose last
    entry stands for the text outside of all of them;
  * `slice?`, `subtract?`: the checked reads and the checked difference;
  * `OffsetLexer.pass`, `OffsetLexer.scan`, `OffsetLexer.next`: one character or
    one run of braces, what completes the next tokens, and one call;
  * `OffsetLexer.afterCalls`, `OffsetLexer.item`: the lexer after some calls, and
    what the next call hands out;
  * `OffsetLexer.Onward`: how the parts of a pass move the cursor, and
    `OffsetLexer.pass_onward`: **a pass moves it on, or ends the scan**;
  * `OffsetLexer.Safe`: offsets in the text, and a stack in order.
-/
import BraceMarkup.Proofs.Token.Step

namespace BraceMarkup

/-! ## Checks -/

/-- The characters between two offsets, if these are in order and in the text. -/
def slice? (chars : List Char) (start stop : Nat) : Option (List Char) :=
  if start ≤ stop ∧ stop ≤ chars.length then some ((chars.take stop).drop start) else none

/-- A difference that is not negative. -/
def subtract? (m n : Nat) : Option Nat := if n ≤ m then some (m - n) else none

theorem subtract?_eq_some {m n k : Nat} (h : subtract? m n = some k) : k = m - n := by
  unfold subtract? at h
  split at h
  · exact (Option.some.inj h).symm
  · cases h

/-! ## States -/

/-- A lexer that finds its place in the text by offsets. -/
structure OffsetLexer where
  /-- All characters of the text. -/
  chars : List Char
  /-- The offset of the first character that has not been read. -/
  pos : Nat
  /-- The position of that character. -/
  position : Position
  /-- The offset where the pending text starts. -/
  textStart : Nat
  /-- The position where the pending text starts. -/
  textPosition : Position
  /-- The arguments that are not closed yet, innermost first.  The last entry stands for the text
      outside of all arguments. -/
  arguments : List OpenArgument
  /-- Tokens that are complete and not handed out yet. -/
  queue : List Token
  /-- The end token or a fault is complete. -/
  done : Bool

namespace OffsetLexer

/-- The lexer before its first call. -/
def ofString (source : String) : OffsetLexer where
  chars := sourceChars source
  pos := 0
  position := .start
  textStart := 0
  textPosition := .start
  arguments := [⟨1, .start⟩]
  queue := []
  done := false

/-- The length of run that the innermost argument asks for. -/
def depth (c : OffsetLexer) : Nat :=
  match c.arguments with
  | [] => 1
  | innermost :: _ => innermost.depth

/-- Outside of all arguments. -/
def isTopLevel (c : OffsetLexer) : Bool := c.arguments.length ≤ 1

/-- The next character; none at the end of the text. -/
def peek (c : OffsetLexer) : Option Char := c.chars[c.pos]?

/-- The length of the run of a character at the cursor. -/
def runLength? (c : OffsetLexer) (char : Char) : Option Nat := do
  let rest ← slice? c.chars c.pos c.chars.length
  return runLength char rest

/-- Moves the cursor behind the next character, if there is one. -/
def advance (c : OffsetLexer) : OffsetLexer :=
  match c.peek with
  | none => c
  | some char => { c with pos := c.pos + 1, position := c.position.advance char }

/-- Moves the cursor behind the next `count` characters, or to the end of the text. -/
def advanceBy (c : OffsetLexer) : Nat → OffsetLexer
  | 0 => c
  | count + 1 => c.advance.advanceBy count

/-! ## Moving on -/

/-- In the same text, and not further back. -/
structure Onward (c after : OffsetLexer) : Prop where
  chars : after.chars = c.chars
  le : c.pos ≤ after.pos

variable {c d after : OffsetLexer}

theorem Onward.refl (c : OffsetLexer) : c.Onward c := ⟨rfl, Nat.le_refl _⟩

theorem Onward.trans (h : c.Onward d) (hd : d.Onward after) : c.Onward after :=
  ⟨hd.chars.trans h.chars, Nat.le_trans h.le hd.le⟩

theorem advance_of_peek {char : Char} (h : c.peek = some char) :
    c.advance = { c with pos := c.pos + 1, position := c.position.advance char } := by
  rw [advance, h]

theorem pos_lt_of_peek {char : Char} (h : c.peek = some char) : c.pos < c.chars.length :=
  (List.getElem?_eq_some_iff.1 h).1

theorem onward_advance (c : OffsetLexer) : c.Onward c.advance := by
  cases h : c.peek with
  | none => rw [advance, h]; exact .refl c
  | some char => rw [advance_of_peek h]; exact ⟨rfl, Nat.le_succ _⟩

theorem onward_advanceBy (c : OffsetLexer) (count : Nat) : c.Onward (c.advanceBy count) := by
  induction count generalizing c with
  | zero => exact .refl c
  | succ count ih => exact c.onward_advance.trans (ih _)

/-- Where a character is left, the cursor moves. -/
theorem pos_lt_advanceBy {char : Char} (h : c.peek = some char) {count : Nat} (hcount : 0 < count) :
    c.pos < (c.advanceBy count).pos := by
  obtain ⟨count, rfl⟩ := Nat.exists_eq_succ_of_ne_zero (Nat.ne_of_gt hcount)
  have hfirst : c.pos < c.advance.pos := by rw [advance_of_peek h]; exact Nat.lt_succ_self _
  exact Nat.lt_of_lt_of_le hfirst (c.advance.onward_advanceBy count).le

/-- The number of characters behind the cursor gets smaller. -/
theorem rest_advance {char : Char} (h : c.peek = some char) :
    c.advance.chars.length - c.advance.pos < c.chars.length - c.pos := by
  have := pos_lt_of_peek h
  rw [advance_of_peek h]
  simp only
  omega

/-- Moves the cursor behind all characters that have a property. -/
def advanceWhile (p : Char → Bool) (c : OffsetLexer) : OffsetLexer :=
  match _h : c.peek with
  | none => c
  | some char => if p char then c.advance.advanceWhile p else c
termination_by c.chars.length - c.pos
decreasing_by exact rest_advance _h

theorem onward_advanceWhile (p : Char → Bool) (c : OffsetLexer) :
    c.Onward (c.advanceWhile p) := by
  fun_induction advanceWhile p c with
  | case1 c => exact .refl c
  | case2 c char _ _ ih => exact c.onward_advance.trans ih
  | case3 c => exact .refl c

/-! ## The parts of a pass -/

/-- Completes a token. -/
def push (c : OffsetLexer) (kind : Token.Kind) (text : List Char) (position : Position) :
    OffsetLexer :=
  { c with queue := c.queue ++ [⟨kind, String.ofList text, position⟩] }

/-- The pending text starts at the cursor. -/
def mark (c : OffsetLexer) : OffsetLexer :=
  { c with textStart := c.pos, textPosition := c.position }

/-- Completes the pending text up to an offset, if there is any. -/
def flushText (c : OffsetLexer) (stop : Nat) : Option OffsetLexer :=
  if c.textStart < stop then do
    let text ← slice? c.chars c.textStart stop
    return c.push .text text c.textPosition
  else return c

/-- Opens an argument with the braces at the cursor, and leaves out one space behind them. -/
def openArgument (c : OffsetLexer) (braces : Nat) : Option OffsetLexer := do
  let inside := c.advanceBy braces
  let text ← slice? inside.chars c.pos inside.pos
  let inside := inside.push .argumentOpen text c.position
  let inside := { inside with arguments := ⟨braces, c.position⟩ :: inside.arguments }
  let inside := if inside.peek = some ' ' then inside.advance else inside
  return inside.mark

/-- Reads on from a `#`. -/
def scanElement (c : OffsetLexer) : Option OffsetLexer := do
  let named := c.advance.advanceWhile isNameChar
  let spaced := named.advanceWhile (· == ' ')
  let braces ← spaced.runLength? '{'
  if braces = 0 ∨ braces < spaced.depth then return spaced
  else do
    let flushed ← spaced.flushText c.pos
    let name ← slice? flushed.chars c.pos named.pos
    (flushed.push .elementName name c.position).openArgument braces

/-- Closes arguments as long as the remaining braces reach: the braces that are left, and the lexer
    behind the others. -/
def closeArguments (c : OffsetLexer) (remaining : Nat) : Option (Nat × OffsetLexer) :=
  match _h : c.arguments with
  | innermost :: next :: outer =>
    if innermost.depth ≤ remaining then do
      let closed := c.advanceBy innermost.depth
      let text ← slice? closed.chars c.pos closed.pos
      let closed := closed.push .argumentClose text c.position
      let left ← subtract? remaining innermost.depth
      closeArguments { closed with arguments := next :: outer } left
    else return (remaining, c)
  | _ => return (remaining, c)
termination_by c.arguments.length
decreasing_by simp [_h]

/-- Where the pending text ends in front of a closing run: one space is left out. -/
def textEnd? (c : OffsetLexer) : Option Nat :=
  if c.textStart < c.pos then do
    let before ← subtract? c.pos 1
    let last ← c.chars[before]?
    if last = ' ' then subtract? c.pos 1 else return c.pos
  else return c.pos

/-- Opens a further argument of the same element, if there are braces enough for it. -/
def openNext (c : OffsetLexer) : Option OffsetLexer := do
  let braces ← c.runLength? '{'
  if 0 < braces ∧ c.depth ≤ braces then c.openArgument braces else return c

/-- Reads on from a closing brace; the fault, if there is one. -/
def scanClosing (c : OffsetLexer) : Option (OffsetLexer × Option LexError) := do
  let count ← c.runLength? '}'
  if c.isTopLevel then return (c, some ⟨.tooManyClosingBraces count, c.position⟩)
  else if count < c.depth then return (c.advanceBy count, none)
  else do
    let flushed ← c.flushText (← c.textEnd?)
    let (left, closed) ← flushed.closeArguments count
    if 0 < left then return (closed, some ⟨.tooManyClosingBraces left, closed.position⟩)
    else return (← closed.mark.openNext, none)

/-- Ends the text; the fault, if an argument is open. -/
def finish (c : OffsetLexer) : Option (OffsetLexer × Option LexError) :=
  match c.arguments with
  | innermost :: _ :: _ =>
    return (c, some ⟨.unterminatedArgument innermost.depth, innermost.position⟩)
  | _ => do
    let flushed ← c.flushText c.pos
    return ({ flushed.push .endOfInput [] c.position with done := true }, none)

/-! ## Passes -/

/-- What comes of a pass. -/
inductive Pass where
  /-- There is more to read. -/
  | goesOn
  /-- The text has ended. -/
  | ends
  /-- A fault was found. -/
  | fails (e : LexError)
  deriving Repr, DecidableEq

/-- A pass that ends with what was found at the end of the text. -/
def Pass.ofEnd : Option LexError → Pass
  | none => .ends
  | some e => .fails e

/-- A pass that goes on unless a fault was found. -/
def Pass.ofFault : Option LexError → Pass
  | none => .goesOn
  | some e => .fails e

/-- One pass of the scan: what it leaves behind, and what comes of it. -/
def pass (c : OffsetLexer) : Option (OffsetLexer × Pass) :=
  match c.peek with
  | none => c.finish.map fun r => (r.1, .ofEnd r.2)
  | some '#' => c.scanElement.map fun after => (after, .goesOn)
  | some '}' => c.scanClosing.map fun r => (r.1, .ofFault r.2)
  | some _ => some (c.advance, .goesOn)

/-! ## Every pass moves on -/

theorem flushText_onward {stop : Nat} (h : c.flushText stop = some after) : c.Onward after := by
  unfold flushText at h
  split at h
  · obtain ⟨text, -, h⟩ := Option.bind_eq_some_iff.1 h
    cases h
    exact ⟨rfl, Nat.le_refl _⟩
  · cases h
    exact .refl c

theorem pos_flushText {stop : Nat} (h : c.flushText stop = some after) : after.pos = c.pos := by
  unfold flushText at h
  split at h
  · obtain ⟨text, -, h⟩ := Option.bind_eq_some_iff.1 h
    cases h
    rfl
  · cases h
    rfl

theorem openArgument_onward {braces : Nat} (h : c.openArgument braces = some after) :
    c.Onward after := by
  obtain ⟨text, -, h⟩ := Option.bind_eq_some_iff.1 h
  cases h
  have hmark : ∀ d : OffsetLexer, d.Onward d.mark := fun _ => ⟨rfl, Nat.le_refl _⟩
  refine (c.onward_advanceBy braces).trans (.trans ?_ (hmark _))
  split
  · refine .trans ?_ (onward_advance _)
    exact ⟨rfl, Nat.le_refl _⟩
  · exact ⟨rfl, Nat.le_refl _⟩

theorem openNext_onward (h : c.openNext = some after) : c.Onward after := by
  obtain ⟨braces, -, h⟩ := Option.bind_eq_some_iff.1 h
  split at h
  · exact openArgument_onward h
  · cases h
    exact .refl c

/-- Behind the `#` at least. -/
theorem scanElement_onward {char : Char} (hchar : c.peek = some char)
    (h : c.scanElement = some after) : after.chars = c.chars ∧ c.pos < after.pos := by
  have hfirst : c.advance.Onward after := by
    have hspaced : c.advance.Onward ((c.advance.advanceWhile isNameChar).advanceWhile (· == ' ')) :=
      (onward_advanceWhile _ _).trans (onward_advanceWhile _ _)
    obtain ⟨braces, -, h⟩ := Option.bind_eq_some_iff.1 h
    split at h
    · cases h
      exact hspaced
    · obtain ⟨flushed, hflushed, h⟩ := Option.bind_eq_some_iff.1 h
      obtain ⟨name, -, h⟩ := Option.bind_eq_some_iff.1 h
      have hopen := openArgument_onward h
      exact (hspaced.trans (flushText_onward hflushed)).trans ⟨hopen.chars, hopen.le⟩
  refine ⟨hfirst.chars.trans c.onward_advance.chars, Nat.lt_of_lt_of_le ?_ hfirst.le⟩
  rw [advance_of_peek hchar]
  exact Nat.lt_succ_self _

theorem closeArguments_onward {remaining left : Nat}
    (h : c.closeArguments remaining = some (left, after)) : c.Onward after := by
  fun_induction closeArguments c remaining with
  | case1 c remaining innermost next outer _ _ closed ih =>
    obtain ⟨text, -, h⟩ := Option.bind_eq_some_iff.1 h
    obtain ⟨less, -, h⟩ := Option.bind_eq_some_iff.1 h
    have hrest := ih _ _ h
    exact (c.onward_advanceBy innermost.depth).trans ⟨hrest.chars, hrest.le⟩
  | case2 => cases h; exact .refl _
  | case3 => cases h; exact .refl _

/-- Where a run of braces is used up, it has been read. -/
theorem pos_lt_of_closeArguments {char : Char} (hchar : c.peek = some char) {remaining : Nat}
    (hpos : 0 < remaining) (h : c.closeArguments remaining = some (0, after)) :
    c.pos < after.pos := by
  fun_induction closeArguments c remaining with
  | case1 c remaining innermost next outer _ _ closed ih =>
    obtain ⟨text, -, h⟩ := Option.bind_eq_some_iff.1 h
    obtain ⟨less, hless, h⟩ := Option.bind_eq_some_iff.1 h
    obtain rfl : less = remaining - innermost.depth := subtract?_eq_some hless
    rcases Nat.eq_zero_or_pos innermost.depth with hzero | hdepth
    · -- nothing keeps a stack from having such an entry here, and closing it reads nothing
      have hclosed : c.advanceBy innermost.depth = c := by rw [hzero]; rfl
      have hpeek : (c.advanceBy innermost.depth).peek = some char := hclosed.symm ▸ hchar
      have hrest : (c.advanceBy innermost.depth).pos < after.pos := ih text _ hpeek (by omega) h
      rwa [hclosed] at hrest
    · exact Nat.lt_of_lt_of_le (pos_lt_advanceBy hchar hdepth) (closeArguments_onward h).le
  | case2 => cases h; exact absurd hpos (Nat.lt_irrefl 0)
  | case3 => cases h; exact absurd hpos (Nat.lt_irrefl 0)

theorem runLength?_eq (h : c.pos ≤ c.chars.length) (char : Char) :
    c.runLength? char = some (runLength char (c.chars.drop c.pos)) := by
  rw [runLength?, slice?, if_pos ⟨h, Nat.le_refl _⟩, List.take_length]
  rfl

theorem drop_of_peek {char : Char} (h : c.peek = some char) :
    ∃ cs, c.chars.drop c.pos = char :: cs := by
  obtain ⟨hlt, hget⟩ := List.getElem?_eq_some_iff.1 h
  exact ⟨_, hget ▸ List.drop_eq_getElem_cons hlt⟩

/-- Behind a closing brace at least, unless a fault is found. -/
theorem scanClosing_onward {fault : Option LexError} (hchar : c.peek = some '}')
    (h : c.scanClosing = some (after, fault)) :
    after.chars = c.chars ∧ (fault = none → c.pos < after.pos) := by
  obtain ⟨cs, hcs⟩ := drop_of_peek hchar
  obtain ⟨count, hcount, h⟩ := Option.bind_eq_some_iff.1 h
  rw [runLength?_eq (Nat.le_of_lt (pos_lt_of_peek hchar))] at hcount
  obtain rfl := Option.some.inj hcount
  have hpos := runLength_pos hcs
  split at h
  · cases h
    exact ⟨rfl, nofun⟩
  split at h
  · cases h
    exact ⟨(c.onward_advanceBy _).chars, fun _ => pos_lt_advanceBy hchar hpos⟩
  obtain ⟨textEnd, -, h⟩ := Option.bind_eq_some_iff.1 h
  obtain ⟨flushed, hflushed, h⟩ := Option.bind_eq_some_iff.1 h
  obtain ⟨⟨left, closed⟩, hclosed, h⟩ := Option.bind_eq_some_iff.1 h
  have hflush := flushText_onward hflushed
  have hchars : closed.chars = c.chars := (hflush.trans (closeArguments_onward hclosed)).chars
  dsimp only at h
  split at h
  · cases h
    exact ⟨hchars, nofun⟩
  next hleft =>
  obtain rfl : left = 0 := Nat.eq_zero_of_not_pos hleft
  -- all of the run is used up, so that the cursor has moved over it
  have hflushPos : flushed.pos = c.pos := pos_flushText hflushed
  have hpeek : flushed.peek = some '}' := by rw [peek, hflush.chars, hflushPos]; exact hchar
  have hlt : c.pos < closed.pos := hflushPos ▸ pos_lt_of_closeArguments hpeek hpos hclosed
  obtain ⟨behind, hbehind, h⟩ := Option.bind_eq_some_iff.1 h
  cases h
  have hnext := openNext_onward hbehind
  exact ⟨hnext.chars.trans hchars, fun _ => Nat.lt_of_lt_of_le hlt hnext.le⟩

theorem finish_onward {fault : Option LexError} (h : c.finish = some (after, fault)) :
    after.chars = c.chars := by
  unfold finish at h
  split at h
  · cases h
    rfl
  · obtain ⟨flushed, hflushed, h⟩ := Option.bind_eq_some_iff.1 h
    cases h
    exact (flushText_onward hflushed).chars

/-- **A pass moves the cursor on, or ends the scan**, and stays in the text. -/
theorem pass_onward {result : Pass} (h : c.pass = some (after, result)) :
    after.chars = c.chars ∧ (result = .goesOn → c.pos < after.pos) := by
  unfold pass at h
  split at h
  · obtain ⟨⟨d, fault⟩, hd, h⟩ := Option.map_eq_some_iff.1 h
    cases h
    exact ⟨finish_onward hd, by cases fault <;> nofun⟩
  · next hchar =>
    obtain ⟨d, hd, h⟩ := Option.map_eq_some_iff.1 h
    cases h
    obtain ⟨hchars, hlt⟩ := scanElement_onward hchar hd
    exact ⟨hchars, fun _ => hlt⟩
  · next hchar =>
    obtain ⟨⟨d, fault⟩, hd, h⟩ := Option.map_eq_some_iff.1 h
    cases h
    obtain ⟨hchars, hlt⟩ := scanClosing_onward hchar hd
    exact ⟨hchars, by cases fault with
      | none => exact fun _ => hlt rfl
      | some e => nofun⟩
  · next char _ _ hchar =>
    cases h
    rw [advance_of_peek hchar]
    exact ⟨rfl, fun _ => Nat.lt_succ_self _⟩

/-- The text has not ended where a pass goes on. -/
theorem pos_lt_of_pass (h : c.pass = some (after, .goesOn)) : c.pos < c.chars.length := by
  unfold pass at h
  split at h
  · obtain ⟨⟨d, e⟩, -, h⟩ := Option.map_eq_some_iff.1 h
    cases e <;> cases h
  · next hchar => exact pos_lt_of_peek hchar
  · next hchar => exact pos_lt_of_peek hchar
  · next hchar => exact pos_lt_of_peek hchar

/-! ## Calls -/

/-- Passes until one completes a token, ends the text or finds a fault: what is left behind, and the
    fault. -/
def scan (c : OffsetLexer) : Option (OffsetLexer × Option LexError) :=
  if c.queue.isEmpty then
    match _h : c.pass with
    | none => none
    | some (after, .goesOn) => after.scan
    | some (after, .ends) => some (after, none)
    | some (after, .fails e) => some (after, some e)
  else some (c, none)
termination_by c.chars.length - c.pos
decreasing_by
  have := pos_lt_of_pass _h
  obtain ⟨hchars, hpos⟩ := pass_onward _h
  have := hpos rfl
  rw [hchars]
  omega

/-- One call: the next token or the fault that stands in its place, and what is left behind.  A
    fault takes the tokens with it that were completed in its own pass. -/
def next (c : OffsetLexer) : Option (Option (Except LexError Token) × OffsetLexer) :=
  match c.queue with
  | token :: queue => some (some (.ok token), { c with queue })
  | [] =>
    if c.done then some (none, c)
    else do
      let (after, fault) ← c.scan
      match fault with
      | some e => return (some (.error e), { after with done := true, queue := [] })
      | none =>
        match after.queue with
        | token :: queue => return (some (.ok token), { after with queue })
        | [] => return (none, after)

/-- The lexer after some calls. -/
def afterCalls (c : OffsetLexer) : Nat → Option OffsetLexer
  | 0 => some c
  | n + 1 => do
    let before ← c.afterCalls n
    let (_, later) ← before.next
    return later

/-- What is handed out behind the items of `n` earlier calls, if none of the checks fails. -/
def item (c : OffsetLexer) (n : Nat) : Option (Option (Except LexError Token)) := do
  let before ← c.afterCalls n
  let (handed, _) ← before.next
  return handed

/-- A scan stays in the text. -/
theorem chars_scan {fault : Option LexError} (h : c.scan = some (after, fault)) :
    after.chars = c.chars := by
  fun_induction scan c with
  | case1 => cases h
  | case2 c _ d hpass ih => exact (ih h).trans (pass_onward hpass).1
  | case3 c _ d hpass => cases h; exact (pass_onward hpass).1
  | case4 c _ d e hpass => cases h; exact (pass_onward hpass).1
  | case5 => cases h; rfl

theorem chars_next {handed : Option (Except LexError Token)} (h : c.next = some (handed, after)) :
    after.chars = c.chars := by
  unfold next at h
  split at h
  · cases h
    rfl
  split at h
  · cases h
    rfl
  obtain ⟨⟨scanned, fault⟩, hscan, h⟩ := Option.bind_eq_some_iff.1 h
  rw [← chars_scan hscan]
  cases fault with
  | some e =>
    cases h
    rfl
  | none =>
    dsimp only at h
    split at h <;> cases h <;> rfl

/-- **All calls stay in the text.** -/
theorem chars_afterCalls {n : Nat} (h : c.afterCalls n = some after) : after.chars = c.chars := by
  induction n generalizing after with
  | zero =>
    cases h
    rfl
  | succ n ih =>
    obtain ⟨before, hbefore, h⟩ := Option.bind_eq_some_iff.1 h
    obtain ⟨⟨handed, later⟩, hlater, h⟩ := Option.bind_eq_some_iff.1 h
    cases h
    exact (chars_next hlater).trans (ih hbefore)

/-! ## Safety -/

/-- No entry of a stack, innermost first, is less deep than those below it. -/
def DepthsOrdered (arguments : List OpenArgument) : Prop :=
  arguments.Pairwise fun inner outer => outer.depth ≤ inner.depth

/-- The offsets are in order and in the text.  The stack has at its bottom an entry of depth one,
    and the depths never decrease from there to its top. -/
structure Safe (c : OffsetLexer) : Prop where
  textStart_le : c.textStart ≤ c.pos
  pos_le : c.pos ≤ c.chars.length
  bottom : ∃ inner p, c.arguments = inner ++ [⟨1, p⟩]
  depths : DepthsOrdered c.arguments

end OffsetLexer

end BraceMarkup
