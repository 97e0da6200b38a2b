/-
  Cutting a text into tokens.

  An element is a `#`, its name, and arguments between runs of braces.  The
  length of a run is what escapes the text inside: an argument opened by `n`
  braces is closed by a run of `n`, and an element in it is one only if its
  own opening run has at least `n` braces.  Shorter runs, and the `#` before
  them, are text.  One space after an opening run and one space before a
  closing run belong to the braces and are left out.

  * `Scanner`: what has been read of a text and what has not;
  * `Scanner.step`: the tokens of the next piece, with what is left, or the
    fault in it; `Scanner.step_shorter`: a step always reads something;
  * `Scanner.run`, `tokenize`: the tokens of a whole text;
  * `Lexer`, `Lexer.next`, `Lexer.drain`: the same tokens one at a time, which
    ends because handing out a token reads on (`Lexer.next_smaller`).
-/
import BraceMarkup.Token
import BraceMarkup.Text.Alphanumeric

namespace BraceMarkup

/-! ## Faults -/

/-- What can be wrong with the braces of a text. -/
inductive LexError.Kind where
  /-- The text ends inside an argument that was opened by `depth` braces. -/
  | unterminatedArgument (depth : Nat)
  /-- `count` closing braces belong to no argument. -/
  | tooManyClosingBraces (count : Nat)
  deriving Repr, DecidableEq

/-- A fault in the braces of a text, with its position. -/
structure LexError where
  kind : LexError.Kind
  position : Position
  deriving Repr, DecidableEq

/-- The fault in words, without its position. -/
def LexError.Kind.describe : LexError.Kind → String
  | unterminatedArgument depth =>
    "unterminated argument, expected closing run of " ++ toString depth ++ " brace(s)"
  | tooManyClosingBraces count => "too many closing braces (" ++ toString count ++ ")"

/-- The fault and its position in words. -/
def LexError.message (e : LexError) : String :=
  e.kind.describe ++ " at " ++ e.position.describe

/-! ## The scanner -/

/-- A character that may stand in the name of an element. -/
def isNameChar (c : Char) : Bool :=
  Text.isAlphanumeric c || c == '-' || c == '_' || c == '.'

/-- An argument that is not closed yet: how many braces opened it, and where they stand. -/
structure OpenArgument where
  depth : Nat
  position : Position
  deriving Repr, DecidableEq

/-- A text on the way through the scanner. -/
structure Scanner where
  /-- What has not been read. -/
  rest : List Char
  /-- The position of the first character of `rest`. -/
  position : Position
  /-- The text read since the last token, last character first. -/
  pending : List Char
  /-- The position of the first character of the pending text. -/
  pendingPosition : Position
  /-- The arguments that are not closed yet, innermost first. -/
  opened : List OpenArgument

/-- The scanner before the first character of a text. -/
def Scanner.ofList (cs : List Char) : Scanner :=
  ⟨cs, .start, [], .start, []⟩

/-- The length of run that the innermost argument asks for; one outside of all arguments. -/
def Scanner.depth (s : Scanner) : Nat :=
  match s.opened with
  | [] => 1
  | innermost :: _ => innermost.depth

/-- The length of the run of `c` at the front of a list. -/
def runLength (c : Char) (cs : List Char) : Nat := (cs.takeWhile (· == c)).length

/-- The text token of the pending characters, latest first; none if there are none. -/
def textToken (position : Position) (pending : List Char) : List Token :=
  if pending.isEmpty then [] else [⟨.text, String.ofList pending.reverse, position⟩]

/-- Moves the first `n` characters of the rest into the pending text. -/
def Scanner.keep (s : Scanner) (n : Nat) : Scanner :=
  { s with
    rest := s.rest.drop n
    position := s.position.advanceList (s.rest.take n)
    pending := (s.rest.take n).reverse ++ s.pending }

/-- Leaves out the first `n` characters of the rest and the pending text; the next text begins
    behind them. -/
def Scanner.skip (s : Scanner) (n : Nat) : Scanner :=
  let position := s.position.advanceList (s.rest.take n)
  { s with rest := s.rest.drop n, position, pending := [], pendingPosition := position }

/-- Opens an argument with the `braces` braces at the front of the rest, and leaves out one space
    behind them. -/
def Scanner.openArgument (s : Scanner) (braces : Nat) : Token × Scanner :=
  let token := ⟨.argumentOpen, String.ofList (s.rest.take braces), s.position⟩
  let inside := s.skip braces
  let inside := { inside with opened := ⟨braces, s.position⟩ :: s.opened }
  (token, if inside.rest.head? = some ' ' then inside.skip 1 else inside)

/-- Reads on from a `#`: an element if its name and any spaces are followed by a run of braces long
    enough for the innermost argument, text otherwise. -/
def Scanner.element (s : Scanner) : List Token × Scanner :=
  let name := 1 + (s.rest.tail.takeWhile isNameChar).length
  let spaces := runLength ' ' (s.rest.drop name)
  let braces := runLength '{' (s.rest.drop (name + spaces))
  if braces = 0 ∨ braces < s.depth then
    ([], s.keep (name + spaces))
  else
    let nameToken := ⟨.elementName, String.ofList (s.rest.take name), s.position⟩
    let (openToken, inside) := (s.skip (name + spaces)).openArgument braces
    (textToken s.pendingPosition s.pending ++ [nameToken, openToken], inside)

/-- Closes arguments, innermost first, as long as the `remaining` closing braces reach: the tokens,
    the braces that are left, and the arguments that stay open. -/
def closeArguments (position : Position) (remaining : Nat) :
    List OpenArgument → List Token × Nat × List OpenArgument
  | [] => ([], remaining, [])
  | innermost :: outer =>
    if innermost.depth ≤ remaining then
      let braces := List.replicate innermost.depth '}'
      let token := ⟨.argumentClose, String.ofList braces, position⟩
      let (tokens, left, opened) :=
        closeArguments (position.advanceList braces) (remaining - innermost.depth) outer
      (token :: tokens, left, opened)
    else ([], remaining, innermost :: outer)

/-- Leaves out the last pending character if it is a space. -/
def dropSpace (pending : List Char) : List Char :=
  match pending with
  | ' ' :: earlier => earlier
  | pending => pending

/-- Reads on from a closing brace.  The whole run must close arguments exactly; a run that is too
    short for the innermost argument is text.  Braces that open right behind the run begin a
    further argument of the same element. -/
def Scanner.closing (s : Scanner) : Except LexError (List Token × Scanner) :=
  let count := runLength '}' s.rest
  if s.opened.isEmpty then
    .error ⟨.tooManyClosingBraces count, s.position⟩
  else if count < s.depth then
    .ok ([], s.keep count)
  else
    let text := textToken s.pendingPosition (dropSpace s.pending)
    let (closed, left, opened) := closeArguments s.position count s.opened
    if 0 < left then
      .error ⟨.tooManyClosingBraces left,
        s.position.advanceList (List.replicate (count - left) '}')⟩
    else
      let outside := { s.skip count with opened }
      let braces := runLength '{' outside.rest
      if braces = 0 ∨ braces < outside.depth then
        .ok (text ++ closed, outside)
      else
        let (openToken, inside) := outside.openArgument braces
        .ok (text ++ closed ++ [openToken], inside)

/-- Ends the text: every argument must be closed. -/
def Scanner.finish (s : Scanner) : Except LexError (List Token) :=
  match s.opened with
  | innermost :: _ => .error ⟨.unterminatedArgument innermost.depth, innermost.position⟩
  | [] => .ok (textToken s.pendingPosition s.pending ++ [⟨.endOfInput, "", s.position⟩])

/-- One step: the tokens it completes, and what is left unless the text has ended. -/
def Scanner.step (s : Scanner) : Except LexError (List Token × Option Scanner) :=
  match s.rest with
  | [] => do return (← s.finish, none)
  | '#' :: _ => let (tokens, next) := s.element; .ok (tokens, some next)
  | '}' :: _ => do let (tokens, next) ← s.closing; return (tokens, some next)
  | _ :: _ => .ok ([], some (s.keep 1))

/-! ## Every step reads something -/

@[simp] theorem Scanner.rest_keep (s : Scanner) (n : Nat) : (s.keep n).rest = s.rest.drop n := rfl

@[simp] theorem Scanner.rest_skip (s : Scanner) (n : Nat) : (s.skip n).rest = s.rest.drop n := rfl

theorem Scanner.length_openArgument_le (s : Scanner) (braces : Nat) :
    (s.openArgument braces).2.rest.length ≤ s.rest.length := by
  simp only [Scanner.openArgument]
  split <;> simp

theorem Scanner.length_element_lt {s : Scanner} (h : s.rest ≠ []) :
    s.element.2.rest.length < s.rest.length := by
  have hpos : 0 < s.rest.length := List.length_pos_iff.2 h
  simp only [Scanner.element]
  split
  · simp; omega
  · refine Nat.lt_of_le_of_lt (Scanner.length_openArgument_le _ _) ?_
    simp; omega

theorem Scanner.length_closing_lt {s next : Scanner} {tokens : List Token} {cs : List Char}
    (hs : s.rest = '}' :: cs) (h : s.closing = .ok (tokens, next)) :
    next.rest.length < s.rest.length := by
  have hcount : 0 < runLength '}' s.rest := by simp [runLength, hs]
  have hpos : 0 < s.rest.length := by simp [hs]
  simp only [Scanner.closing] at h
  split at h
  · cases h
  split at h
  · cases h; simp; omega
  split at h
  · cases h
  split at h
  · cases h; simp; omega
  · cases h
    refine Nat.lt_of_le_of_lt (Scanner.length_openArgument_le _ _) ?_
    simp; omega

/-- A step that does not end the text leaves less of it to read. -/
theorem Scanner.step_shorter {s next : Scanner} {tokens : List Token}
    (h : s.step = .ok (tokens, some next)) : next.rest.length < s.rest.length := by
  unfold Scanner.step at h
  split at h
  · cases hf : s.finish <;> simp [hf, bind, Except.bind, pure, Except.pure] at h
  · next cs hs =>
    cases h
    exact Scanner.length_element_lt (by simp [hs])
  · next cs hs =>
    cases hc : s.closing with
    | error e => simp [hc, bind, Except.bind] at h
    | ok r =>
      simp only [hc, bind, Except.bind, pure, Except.pure, Except.ok.injEq, Prod.mk.injEq,
        Option.some.injEq] at h
      obtain ⟨rfl, rfl⟩ := h
      exact Scanner.length_closing_lt hs hc
  · next hs =>
    cases h
    simp [hs]

/-! ## Whole texts -/

/-- The tokens of all that is left, or the first fault in it. -/
def Scanner.run (s : Scanner) : Except LexError (List Token) :=
  match _h : s.step with
  | .error e => .error e
  | .ok (tokens, none) => .ok tokens
  | .ok (tokens, some next) => do return tokens ++ (← next.run)
termination_by s.rest.length
decreasing_by exact Scanner.step_shorter _h

/-- The characters of a text less the byte order mark that may stand in front of it. -/
def sourceChars (source : String) : List Char :=
  match source.toList with
  | '\uFEFF' :: cs => cs
  | cs => cs

/-- The tokens of a text, the last of which marks its end. -/
def tokenize (source : String) : Except LexError (List Token) :=
  (Scanner.ofList (sourceChars source)).run

/-! ## One token at a time -/

/-- Steps until one completes a token or the text ends: the tokens, and what is left. -/
def Scanner.fill (s : Scanner) : Except LexError (List Token × Option Scanner) :=
  match _h : s.step with
  | .error e => .error e
  | .ok (tokens, none) => .ok (tokens, none)
  | .ok ([], some next) => next.fill
  | .ok (token :: tokens, some next) => .ok (token :: tokens, some next)
termination_by s.rest.length
decreasing_by exact Scanner.step_shorter _h

/-- The tokens of a text as a sequence that is read once. -/
structure Lexer where
  /-- Tokens that are complete and not handed out yet. -/
  queue : List Token
  /-- What is left of the text; nothing after its end and after a fault. -/
  scanner : Option Scanner

/-- The sequence before its first token. -/
def Lexer.ofString (source : String) : Lexer :=
  ⟨[], some (.ofList (sourceChars source))⟩

/-- The next token or the fault that stands in its place, and the sequence behind it; nothing once
    the end of the text or a fault has been handed out. -/
def Lexer.next (l : Lexer) : Option (Except LexError Token) × Lexer :=
  match l.queue, l.scanner with
  | token :: queue, scanner => (some (.ok token), ⟨queue, scanner⟩)
  | [], none => (none, l)
  | [], some s =>
    match s.fill with
    | .error e => (some (.error e), ⟨[], none⟩)
    | .ok ([], scanner) => (none, ⟨[], scanner⟩)
    | .ok (token :: queue, scanner) => (some (.ok token), ⟨queue, scanner⟩)

/-- How many characters a sequence can still read; its end counts as one. -/
def Lexer.unread (l : Lexer) : Nat :=
  match l.scanner with
  | none => 0
  | some s => s.rest.length + 1

/-- Filling the queue leaves less of the text to read. -/
theorem Scanner.fill_shorter {s next : Scanner} {tokens : List Token}
    (h : s.fill = .ok (tokens, some next)) : next.rest.length < s.rest.length := by
  fun_induction Scanner.fill s with
  | case1 => cases h
  | case2 => simp at h
  | case3 s middle hs ih => exact Nat.lt_trans (ih h) (Scanner.step_shorter hs)
  | case4 s token tokens middle hs =>
    simp only [Except.ok.injEq, Prod.mk.injEq, Option.some.injEq] at h
    exact h.2 ▸ Scanner.step_shorter hs

/-- Handing out an item takes a token off the queue or reads on in the text. -/
theorem Lexer.next_smaller {l after : Lexer} {item : Except LexError Token}
    (h : l.next = (some item, after)) :
    after.unread < l.unread ∨ after.unread = l.unread ∧ after.queue.length < l.queue.length := by
  unfold Lexer.next at h
  split at h
  · next hq =>
    cases h
    right
    simp [Lexer.unread, hq]
  · cases h
  · next s hq hs =>
    left
    split at h
    · cases h; simp [Lexer.unread, hs]
    · cases h
    · next scanner hf =>
      cases h
      cases scanner with
      | none => simp [Lexer.unread, hs]
      | some next => simpa [Lexer.unread, hs] using Scanner.fill_shorter hf

/-- All that a sequence still hands out, and the sequence behind it. -/
def Lexer.drain (l : Lexer) : List (Except LexError Token) × Lexer :=
  match _h : l.next with
  | (none, after) => ([], after)
  | (some item, after) => let (items, last) := after.drain; (item :: items, last)
termination_by (l.unread, l.queue.length)
decreasing_by
  rcases Lexer.next_smaller _h with h | ⟨h, hq⟩
  · exact Prod.Lex.left _ _ h
  · rw [h]; exact Prod.Lex.right _ hq

end BraceMarkup
