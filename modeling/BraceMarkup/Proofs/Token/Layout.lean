/-
  Where the tokens of a text stand.

  Tokens stand in the text in their order, each with its own characters at its
  own position, and the characters between them are spaces: all spaces between
  the name of an element and the braces behind it, one space behind a run that
  opens an argument, and one in front of a run that closes arguments.

  * `Placement`: a token and its offset in the text; `Placement.InText`: its
    text and its position are those of the offset;
  * `Follows`: what may lie between two tokens;
  * `Laid`: a sequence of tokens laid out behind a placement;
  * `ScanAt`: a scanner whose tokens so far are laid out, and whose pending
    text begins behind the last of them;
  * `tokenize_layout`: the tokens of a whole text are laid out in it, from its
    first character to its end.
-/
import BraceMarkup.Proofs.Token.Step
import Mathlib.Data.List.Chain
import Mathlib.Data.List.Induction

namespace BraceMarkup

/-! ## Positions -/

/-- The position behind some characters, of which the line feeds end lines. -/
def lineAndColumn (before : List Char) : Position :=
  ⟨1 + before.count '\n', 1 + (before.reverse.takeWhile (· != '\n')).length⟩

theorem advanceList_start (before : List Char) :
    Position.start.advanceList before = lineAndColumn before := by
  induction before using List.reverseRecOn with
  | nil => rfl
  | append_singleton before c ih =>
    rw [Position.advanceList_append, ih]
    by_cases hc : c = '\n' <;>
      simp [Position.advance, lineAndColumn, hc] <;> omega

theorem lineAndColumn_add (cs : List Char) (k n : Nat) :
    lineAndColumn (cs.take (k + n)) =
      (lineAndColumn (cs.take k)).advanceList ((cs.drop k).take n) := by
  rw [← advanceList_start, ← advanceList_start, List.take_add, Position.advanceList_append]

/-! ## Tokens in a text -/

/-- A token, and the number of characters in front of it. -/
structure Placement where
  offset : Nat
  token : Token

/-- The number of characters up to the end of the token. -/
def Placement.stop (p : Placement) : Nat := p.offset + p.token.text.length

/-- The token is what stands at its offset. -/
structure Placement.InText (cs : List Char) (p : Placement) : Prop where
  text : (cs.drop p.offset).take p.token.text.length = p.token.text.toList
  stop_le : p.stop ≤ cs.length
  position : p.token.position = lineAndColumn (cs.take p.offset)

/-- How many spaces behind a token are left out: all of them behind a name, at most one behind a
    run that opens an argument. -/
def spacesBehind (cs : List Char) (p : Placement) : Nat :=
  match p.token.kind with
  | .elementName => runLength ' ' (cs.drop p.stop)
  | .argumentOpen => if cs[p.stop]? = some ' ' then 1 else 0
  | _ => 0

/-- How many spaces in front of the token `q` are left out: one in front of a closing run, if there
    is one that has not been left out behind the token `p`. -/
def spacesBefore (cs : List Char) (p q : Placement) : Nat :=
  if q.token.kind = .argumentClose ∧ cs[q.offset - 1]? = some ' ' ∧
      (spacesBehind cs p = 0 ∨ q.offset ≠ p.stop + spacesBehind cs p) then 1
  else 0

/-- The token `q` is the next one behind the token `p`. -/
structure Follows (cs : List Char) (p q : Placement) : Prop where
  offset : q.offset = p.stop + spacesBehind cs p + spacesBefore cs p q
  spaces : ∀ i, p.stop ≤ i → i < q.offset → cs[i]? = some ' '
  opens : p.token.kind = .elementName → q.token.kind = .argumentOpen

section
variable {cs : List Char}

theorem Placement.inText {k : Nat} {u v : List Char} (kind : Token.Kind)
    (h : cs.drop k = u ++ v) (hk : k ≤ cs.length) :
    Placement.InText cs ⟨k, ⟨kind, String.ofList u, lineAndColumn (cs.take k)⟩⟩ where
  text := by simp [h]
  stop_le := by
    have := congrArg List.length h
    simp only [List.length_drop, List.length_append] at this
    simp only [Placement.stop, String.length_ofList]
    omega
  position := rfl

theorem getElem?_runLength (c : Char) (ds : List Char) {i : Nat} (hi : i < runLength c ds) :
    ds[i]? = some c := by
  induction ds generalizing i with
  | nil => simp [runLength] at hi
  | cons d ds ih =>
    by_cases hd : d = c
    · subst hd
      cases i with
      | zero => rfl
      | succ i => exact ih (by simpa [runLength] using hi)
    · simp [runLength, hd] at hi

/-- What is left out behind a token is spaces. -/
theorem getElem?_spacesBehind {p : Placement} {i : Nat} (hi : p.stop ≤ i)
    (hlt : i < p.stop + spacesBehind cs p) : cs[i]? = some ' ' := by
  unfold spacesBehind at hlt
  split at hlt
  · have := getElem?_runLength ' ' (cs.drop p.stop) (i := i - p.stop) (by omega)
    rwa [List.getElem?_drop, Nat.add_sub_cancel' hi] at this
  · split at hlt
    · next h => rwa [show i = p.stop by omega]
    · omega
  · omega

/-- Nothing is left out in front of a token that closes no argument. -/
theorem follows_of_offset_eq {p q : Placement} (ho : q.offset = p.stop + spacesBehind cs p)
    (hq : q.token.kind ≠ .argumentClose)
    (hp : p.token.kind = .elementName → q.token.kind = .argumentOpen) : Follows cs p q where
  offset := by simp [spacesBefore, hq, ho]
  spaces i hi hlt := getElem?_spacesBehind hi (ho ▸ hlt)
  opens := hp

/-- No space stands in front of a closing run that follows directly. -/
theorem follows_close_direct {p q : Placement} (ho : q.offset = p.stop + spacesBehind cs p)
    (hs : spacesBehind cs p = 0 → cs[q.offset - 1]? ≠ some ' ')
    (hp : p.token.kind ≠ .elementName) : Follows cs p q where
  offset := by
    have : spacesBefore cs p q = 0 := by
      rw [spacesBefore, if_neg]
      rintro ⟨-, hc, h | h⟩
      · exact hs h hc
      · exact h ho
    omega
  spaces i hi hlt := getElem?_spacesBehind hi (ho ▸ hlt)
  opens h := absurd h hp

/-- One space is left out in front of a closing run. -/
theorem follows_close_space {p q : Placement} (ho : q.offset = p.stop + spacesBehind cs p + 1)
    (hq : q.token.kind = .argumentClose) (hs : cs[q.offset - 1]? = some ' ')
    (hp : p.token.kind ≠ .elementName) : Follows cs p q where
  offset := by
    rw [spacesBefore, if_pos ⟨hq, hs, Or.inr (by omega)⟩, ho]
  spaces i hi hlt := by
    rcases Nat.lt_or_ge i (p.stop + spacesBehind cs p) with h | h
    · exact getElem?_spacesBehind hi h
    · rwa [show i = q.offset - 1 by omega]
  opens h := absurd h hp

/-! ## Laying out tokens -/

variable (cs) in
/-- The tokens are laid out in the text behind the first placement, or from the beginning of the
    text, and the last of them stands at the second. -/
inductive Laid : Option Placement → List Token → Option Placement → Prop
  | nil {prev} : Laid prev [] prev
  | cons {prev q tokens last} : q.InText cs → (prev = none → q.offset = 0) →
      (∀ p ∈ prev, Follows cs p q) → Laid (some q) tokens last → Laid prev (q.token :: tokens) last

theorem Laid.append {prev mid last : Option Placement} {tokens later : List Token}
    (h : Laid cs prev tokens mid) (hl : Laid cs mid later last) :
    Laid cs prev (tokens ++ later) last := by
  induction h with
  | nil => exact hl
  | cons hq h0 hf _ ih => exact .cons hq h0 hf (ih hl)

variable (cs) in
/-- The next token may begin at `front`, behind what is left out behind the last one. -/
structure Cursor (prev : Option Placement) (front : Nat) : Prop where
  start : prev = none → front = 0
  behind : ∀ p ∈ prev, front = p.stop + spacesBehind cs p
  named : ∀ p ∈ prev, p.token.kind ≠ .elementName

theorem Cursor.follows {prev : Option Placement} {front : Nat} (h : Cursor cs prev front)
    {q : Placement} (ho : q.offset = front) (hq : q.token.kind ≠ .argumentClose) :
    ∀ p ∈ prev, Follows cs p q := fun p hp =>
  follows_of_offset_eq (ho.trans (h.behind p hp)) hq fun hk => absurd hk (h.named p hp)

theorem Cursor.of_stop {q : Placement} (hq : spacesBehind cs q = 0)
    (hk : q.token.kind ≠ .elementName) : Cursor cs (some q) q.stop where
  start h := by cases h
  behind p hp := by cases hp; simp [hq]
  named p hp := by cases hp; exact hk

/-- The text token of some pending characters is laid out where they stand. -/
theorem Cursor.laid_textToken {prev : Option Placement} {front : Nat} (h : Cursor cs prev front)
    {pending rest : List Char} (hd : cs.drop front = pending.reverse ++ rest)
    (hf : front ≤ cs.length) :
    ∃ mid, Laid cs prev (textToken (lineAndColumn (cs.take front)) pending) mid ∧
      Cursor cs mid (front + pending.length) ∧
      (mid = prev ∧ pending = [] ∨ pending ≠ [] ∧ ∃ p, mid = some p ∧ p.token.kind = .text) := by
  by_cases hp : pending = []
  · subst hp
    exact ⟨prev, by simpa [textToken] using .nil, h, Or.inl ⟨rfl, rfl⟩⟩
  · let q : Placement :=
      ⟨front, ⟨.text, String.ofList pending.reverse, lineAndColumn (cs.take front)⟩⟩
    have hstop : q.stop = front + pending.length := by simp [q, Placement.stop]
    refine ⟨some q, ?_, hstop ▸ Cursor.of_stop rfl (by simp [q]), Or.inr ⟨hp, q, rfl, rfl⟩⟩
    have : textToken (lineAndColumn (cs.take front)) pending = [q.token] := by
      simp [textToken, hp, q]
    rw [this]
    exact .cons (Placement.inText .text hd hf) h.start (h.follows rfl (by simp [q])) .nil

/-- The tokens of a closing run are laid out one right behind the other. -/
theorem laid_closed {p : Position} {count : Nat} {opened left : List OpenArgument}
    {tokens : List Token} (hc : Closed p count opened tokens left)
    (hpos : ∀ a ∈ opened, 0 < a.depth) (prev : Option Placement) {k : Nat} {rest : List Char}
    (hd : cs.drop k = List.replicate count '}' ++ rest) (hk : k ≤ cs.length)
    (hp : p = lineAndColumn (cs.take k)) (hne : prev ≠ none)
    (hf : ∀ q : Placement, q.offset = k → q.token.kind = .argumentClose →
      ∀ p ∈ prev, Follows cs p q) :
    ∃ mid, Laid cs prev tokens mid ∧ (mid = prev ∧ count = 0 ∨
      ∃ q, mid = some q ∧ q.token.kind = .argumentClose ∧ q.stop = k + count) := by
  induction hc generalizing prev k with
  | done => exact ⟨prev, .nil, Or.inl ⟨rfl, rfl⟩⟩
  | @next p count a outer tokens left _ ih =>
    subst hp
    rw [List.replicate_add, List.append_assoc] at hd
    let q : Placement := ⟨k, ⟨.argumentClose, String.ofList (List.replicate a.depth '}'),
      lineAndColumn (cs.take k)⟩⟩
    have hq : q.InText cs := Placement.inText .argumentClose hd hk
    have hstop : q.stop = k + a.depth := by simp [q, Placement.stop]
    have hdrop : cs.drop (k + a.depth) = List.replicate count '}' ++ rest := by
      rw [← List.drop_drop, hd, List.drop_left' (by simp)]
    have htake : (cs.drop k).take a.depth = List.replicate a.depth '}' := by
      rw [hd, List.take_left' (by simp)]
    have hbrace : cs[k + a.depth - 1]? = some '}' := by
      have ha := hpos a (by simp)
      have : (cs.drop k)[a.depth - 1]? = some '}' := by
        rw [hd, List.getElem?_append_left (by simp; omega)]
        simp [List.getElem?_replicate]; omega
      rw [List.getElem?_drop] at this
      rwa [Nat.add_sub_assoc ha]
    obtain ⟨mid, hlaid, hmid⟩ := ih (fun b hb => hpos b (by simp [hb])) (some q) hdrop
      (hstop ▸ hq.stop_le) (by rw [lineAndColumn_add, htake]) (by simp) (by
        rintro q' ho hk' _ ⟨⟩
        refine follows_close_direct (by simp [ho, hstop, spacesBehind, q]) (fun _ => ?_)
          (by simp [q])
        simp [ho, hbrace])
    refine ⟨mid, .cons hq (fun h => absurd h hne) (hf q rfl rfl) hlaid, Or.inr ?_⟩
    rcases hmid with ⟨rfl, rfl⟩ | ⟨q', rfl, hk', hs'⟩
    · exact ⟨q, rfl, rfl, hstop⟩
    · exact ⟨q', rfl, hk', by omega⟩

/-! ## Scanners in a text -/

variable (cs) in
/-- The scanner stands at an offset of the text. -/
structure Stands (k : Nat) (s : Scanner) : Prop where
  rest : s.rest = cs.drop k
  position : s.position = lineAndColumn (cs.take k)
  le : k ≤ cs.length

variable (cs) in
/-- The scanner is on its way through the text: its tokens so far are laid out up to `prev`, and its
    pending text begins at `front`.  No space is left in front of a closing run there. -/
structure ScanAt (prev : Option Placement) (front : Nat) (s : Scanner) : Prop where
  cursor : Cursor cs prev front
  stands : Stands cs (front + s.pending.length) s
  pending : cs.drop front = s.pending.reverse ++ s.rest
  pendingPosition : s.pendingPosition = lineAndColumn (cs.take front)
  trimmed : ∀ p ∈ prev, spacesBehind cs p = 0 → cs[front - 1]? ≠ some ' '
  opened : prev = none → s.opened = []
  depths : ∀ a ∈ s.opened, 0 < a.depth

section
variable {prev : Option Placement} {front k : Nat} {s : Scanner}

theorem Stands.length_rest (h : Stands cs k s) : k + s.rest.length = cs.length := by
  rw [h.rest, List.length_drop, Nat.add_sub_cancel' h.le]

theorem Stands.position_add (h : Stands cs k s) (n : Nat) :
    s.position.advanceList (s.rest.take n) = lineAndColumn (cs.take (k + n)) := by
  rw [lineAndColumn_add, h.position, h.rest]

theorem Stands.skip (h : Stands cs k s) {n : Nat} (hn : n ≤ s.rest.length) :
    Stands cs (k + n) (s.skip n) where
  rest := by rw [Scanner.rest_skip, h.rest, List.drop_drop]
  position := h.position_add n
  le := by have := h.length_rest; omega

/-- A scanner without pending text, behind a token that is laid out. -/
theorem Stands.scanAt {q : Placement} (h : Stands cs k s) (hc : Cursor cs (some q) k)
    (hp : s.pending = []) (hpp : s.pendingPosition = s.position)
    (ht : spacesBehind cs q = 0 → cs[k - 1]? ≠ some ' ') (hd : ∀ a ∈ s.opened, 0 < a.depth) :
    ScanAt cs (some q) k s where
  cursor := hc
  stands := by simpa [hp] using h
  pending := by simp [hp, h.rest]
  pendingPosition := hpp.trans h.position
  trimmed p hp := by cases hp; exact ht
  opened h := by cases h
  depths := hd

theorem ScanAt.keep (h : ScanAt cs prev front s) (n : Nat) : ScanAt cs prev front (s.keep n) where
  cursor := h.cursor
  stands := by
    have hlen : front + (s.keep n).pending.length =
        front + s.pending.length + (s.rest.take n).length := by
      simp [Scanner.keep]; omega
    rw [hlen]
    refine ⟨?_, ?_, ?_⟩
    · rw [← List.drop_drop, ← h.stands.rest, Scanner.rest_keep, List.drop_eq_drop_min,
        List.length_take]
    · rw [← h.stands.position_add, List.length_take, ← List.take_eq_take_min]; rfl
    · have := h.stands.length_rest
      rw [List.length_take]; omega
  pending := by simp [Scanner.keep, h.pending]
  pendingPosition := h.pendingPosition
  trimmed := h.trimmed
  opened := h.opened
  depths := h.depths

theorem runLength_le (c : Char) (ds : List Char) : runLength c ds ≤ ds.length :=
  (List.takeWhile_prefix (l := ds) (· == c)).length_le

/-- The run that opens an argument is laid out, and the scanner goes on behind it. -/
theorem Stands.openArgument {braces : Nat} (h : Stands cs k s) (hb : braces = runLength '{' s.rest)
    (h0 : 0 < braces) (hdepths : ∀ a ∈ s.opened, 0 < a.depth) (prev : Option Placement)
    (hne : prev ≠ none)
    (hf : ∀ q : Placement, q.offset = k → q.token.kind = .argumentOpen →
      ∀ p ∈ prev, Follows cs p q) :
    ∃ q front, Laid cs prev [(s.openArgument braces).1] (some q) ∧
      ScanAt cs (some q) front (s.openArgument braces).2 := by
  have hle : braces ≤ s.rest.length := hb ▸ runLength_le '{' s.rest
  let q : Placement :=
    ⟨k, ⟨.argumentOpen, String.ofList (s.rest.take braces), lineAndColumn (cs.take k)⟩⟩
  have hq : q.InText cs := by
    refine Placement.inText (v := s.rest.drop braces) .argumentOpen ?_ h.le
    rw [List.take_append_drop, h.rest]
  have hstop : q.stop = k + braces := by simp [q, Placement.stop, Nat.min_eq_left hle]
  have htoken : (s.openArgument braces).1 = q.token := by
    simp only [Scanner.openArgument, h.position, q]
  have hcursor : Cursor cs (some q) (q.stop + spacesBehind cs q) :=
    ⟨fun h => (by cases h), fun p hp => (by cases hp; rfl), fun p hp => (by cases hp; simp [q])⟩
  let inside : Scanner := { s.skip braces with opened := ⟨braces, s.position⟩ :: s.opened }
  have hinside : Stands cs (k + braces) inside :=
    ⟨(h.skip hle).rest, (h.skip hle).position, (h.skip hle).le⟩
  have hdepths' : ∀ a ∈ inside.opened, 0 < a.depth := by
    intro a ha
    rcases List.mem_cons.1 ha with rfl | ha
    exacts [h0, hdepths a ha]
  have hhead : inside.rest.head? = cs[k + braces]? := by rw [hinside.rest, List.head?_drop]
  refine ⟨q, q.stop + spacesBehind cs q, ?_, ?_⟩
  · rw [htoken]
    exact .cons hq (fun h => absurd h hne) (hf q rfl rfl) .nil
  change ScanAt cs _ _ (if inside.rest.head? = some ' ' then inside.skip 1 else inside)
  by_cases hspace : cs[k + braces]? = some ' '
  · have hbehind : spacesBehind cs q = 1 := by simp only [spacesBehind, q, hstop, hspace, if_true]
    have hone : 1 ≤ inside.rest.length := by
      have := (List.getElem?_eq_some_iff.1 hspace).1
      have := hinside.length_rest
      omega
    rw [if_pos (hhead.trans hspace)]
    refine Stands.scanAt ?_ hcursor rfl rfl (fun h => by omega) hdepths'
    rw [hstop, hbehind]
    exact hinside.skip hone
  · have hbehind : spacesBehind cs q = 0 := by simp only [spacesBehind, q, hstop, hspace, if_false]
    have hlast : cs[k + braces - 1]? = some '{' := by
      have := getElem?_runLength '{' s.rest (i := braces - 1) (by omega)
      rwa [h.rest, List.getElem?_drop, ← Nat.add_sub_assoc h0] at this
    rw [if_neg (by rwa [hhead])]
    refine Stands.scanAt ?_ hcursor rfl rfl (fun _ => ?_) hdepths'
    · rwa [hstop, hbehind]
    · simp [hstop, hbehind, hlast]

/-! ## Steps -/

theorem nameLength_le {ds es : List Char} (h : ds = '#' :: es) : nameLength ds ≤ ds.length := by
  have := (List.takeWhile_prefix (l := es) isNameChar).length_le
  simp only [h, nameLength, List.tail_cons, List.length_cons]
  omega

theorem dropSpace_cases (pending : List Char) :
    pending = ' ' :: dropSpace pending ∨
      dropSpace pending = pending ∧ pending.head? ≠ some ' ' := by
  unfold dropSpace
  split
  · exact Or.inl rfl
  · next h =>
    refine Or.inr ⟨rfl, fun hh => ?_⟩
    cases pending with
    | nil => cases hh
    | cons c earlier => exact h earlier (by simpa using hh)

/-- The pending text and the name of an element are laid out, and then the run behind the name. -/
theorem ScanAt.element {ds : List Char} {name spaces braces : Nat} (h : ScanAt cs prev front s)
    (hs : s.rest = '#' :: ds) (hn : name = nameLength s.rest)
    (hsp : spaces = runLength ' ' (s.rest.drop name))
    (hb : braces = runLength '{' (s.rest.drop (name + spaces))) (h0 : 0 < braces) :
    ∃ mid front, Laid cs prev (textToken s.pendingPosition s.pending ++
        [⟨.elementName, String.ofList (s.rest.take name), s.position⟩,
          ((s.skip (name + spaces)).openArgument braces).1]) mid ∧
      ScanAt cs mid front ((s.skip (name + spaces)).openArgument braces).2 := by
  have hname : name ≤ s.rest.length := hn ▸ nameLength_le hs
  have hspaces : name + spaces ≤ s.rest.length := by
    have := runLength_le ' ' (s.rest.drop name)
    rw [← hsp, List.length_drop] at this
    omega
  obtain ⟨mid, htext, hcursor, -⟩ :=
    h.cursor.laid_textToken h.pending (Nat.le_trans (Nat.le_add_right _ _) h.stands.le)
  let p : Placement := ⟨front + s.pending.length, ⟨.elementName, String.ofList (s.rest.take name),
    lineAndColumn (cs.take (front + s.pending.length))⟩⟩
  have hp : p.InText cs := by
    refine Placement.inText (v := s.rest.drop name) .elementName ?_ h.stands.le
    rw [List.take_append_drop, h.stands.rest]
  have hstop : p.stop = front + s.pending.length + name := by
    simp [p, Placement.stop, Nat.min_eq_left hname]
  have hbehind : spacesBehind cs p = spaces := by
    change runLength ' ' (cs.drop p.stop) = spaces
    rw [hstop, ← List.drop_drop, ← h.stands.rest, hsp]
  obtain ⟨q, front', hopen, hscan⟩ := (h.stands.skip hspaces).openArgument hb h0 h.depths
    (some p) (by simp) (by
      rintro q ho hk _ ⟨⟩
      exact follows_of_offset_eq (by omega) (by simp [hk]) fun _ => hk)
  refine ⟨some q, front', ?_, hscan⟩
  rw [h.pendingPosition, h.stands.position]
  exact htext.append (.cons hp hcursor.start (hcursor.follows rfl (by simp [p])) hopen)

/-- The pending text is laid out up to the space in front of a closing run, and the run may follow
    it. -/
theorem ScanAt.laid_beforeClose (h : ScanAt cs prev front s) (ho : s.opened ≠ []) :
    ∃ mid, Laid cs prev (textToken s.pendingPosition (dropSpace s.pending)) mid ∧ mid ≠ none ∧
      ∀ q : Placement, q.offset = front + s.pending.length → q.token.kind = .argumentClose →
        ∀ p ∈ mid, Follows cs p q := by
  have hle : front ≤ cs.length := Nat.le_trans (Nat.le_add_right _ _) h.stands.le
  rcases dropSpace_cases s.pending with hd | ⟨hd, hhead⟩
  · have hpending : cs.drop front = (dropSpace s.pending).reverse ++ (' ' :: s.rest) := by
      rw [h.pending, hd]
      simp [dropSpace]
    obtain ⟨mid, htext, hcursor, hmid⟩ := h.cursor.laid_textToken hpending hle
    refine ⟨mid, h.pendingPosition ▸ htext, ?_, fun q hq hk p hp => ?_⟩
    · rcases hmid with ⟨rfl, -⟩ | ⟨-, p, rfl, -⟩
      · exact fun hn => ho (h.opened hn)
      · simp
    · have hlen : s.pending.length = (dropSpace s.pending).length + 1 := by
        conv_lhs => rw [hd]
        rfl
      have hspace : (cs.drop front)[(dropSpace s.pending).length]? = some ' ' := by
        rw [hpending, List.getElem?_append_right (by simp)]
        simp
      rw [List.getElem?_drop] at hspace
      refine follows_close_space (by have := hcursor.behind p hp; omega) hk ?_ (hcursor.named p hp)
      rwa [hq, hlen, ← Nat.add_assoc, Nat.add_sub_cancel]
  · obtain ⟨mid, htext, hcursor, hmid⟩ := h.cursor.laid_textToken h.pending hle
    rw [hd]
    refine ⟨mid, h.pendingPosition ▸ htext, ?_, fun q hq hk p hp => ?_⟩
    · rcases hmid with ⟨rfl, -⟩ | ⟨-, p, rfl, -⟩
      · exact fun hn => ho (h.opened hn)
      · simp
    · refine follows_close_direct (hq.trans (hcursor.behind p hp)) (fun hbehind => ?_)
        (hcursor.named p hp)
      rcases hmid with ⟨rfl, hnil⟩ | ⟨hne, -, -, -⟩
      · simpa [hq, hnil] using h.trimmed p hp hbehind
      · obtain ⟨c, earlier, hc⟩ := List.exists_cons_of_ne_nil hne
        have hlast : (cs.drop front)[earlier.length]? = some c := by
          rw [h.pending, hc]
          simp
        rw [List.getElem?_drop] at hlast
        rw [hq, hc, List.length_cons, ← Nat.add_assoc, Nat.add_sub_cancel, hlast]
        simpa [hc] using hhead

/-- The pending text is laid out up to the space in front of a closing run, and then the tokens of
    the run. -/
theorem ScanAt.close {ds : List Char} {count : Nat} {closed : List Token}
    {opened : List OpenArgument}
    (h : ScanAt cs prev front s) (hs : s.rest = '}' :: ds) (hc : count = runLength '}' s.rest)
    (ho : s.opened ≠ [])
    (hclosed : closeArguments s.position count s.opened = (closed, 0, opened)) :
    ∃ q k, Laid cs prev (textToken s.pendingPosition (dropSpace s.pending) ++ closed) (some q) ∧
      ScanAt cs (some q) k (s.outside count opened) ∧ Stands cs k (s.outside count opened) := by
  have hlen : count ≤ s.rest.length := hc ▸ runLength_le '}' s.rest
  have h0 : 0 < count := hc ▸ runLength_pos hs
  have hd : cs.drop (front + s.pending.length) = List.replicate count '}' ++ s.rest.drop count := by
    rw [← h.stands.rest, hc, ← take_runLength, List.take_append_drop]
  obtain ⟨mid, htext, hne, hfollows⟩ := h.laid_beforeClose ho
  obtain ⟨mid', hlaid, hmid⟩ := laid_closed (Closed.of_closeArguments hclosed) h.depths mid hd
    h.stands.le h.stands.position hne hfollows
  obtain ⟨q, rfl, hk, hstop⟩ : ∃ q, mid' = some q ∧ q.token.kind = .argumentClose ∧
      q.stop = front + s.pending.length + count :=
    hmid.resolve_left fun hz => Nat.ne_of_gt h0 hz.2
  have hbehind : spacesBehind cs q = 0 := by simp [spacesBehind, hk]
  have hstands : Stands cs (front + s.pending.length + count) (s.outside count opened) :=
    ⟨(h.stands.skip hlen).rest, (h.stands.skip hlen).position, (h.stands.skip hlen).le⟩
  have hlast : cs[front + s.pending.length + count - 1]? = some '}' := by
    have := getElem?_runLength '}' s.rest (i := count - 1) (by omega)
    rwa [h.stands.rest, List.getElem?_drop, ← Nat.add_sub_assoc h0] at this
  refine ⟨q, _, htext.append hlaid, ?_, hstands⟩
  refine hstands.scanAt (hstop ▸ Cursor.of_stop hbehind (by simp [hk])) rfl rfl (fun _ => ?_)
    fun a ha => h.depths a ?_
  · simp [hlast]
  · exact (Closed.of_closeArguments hclosed).subset ha

theorem Scanner.Step.scanAt {next : Scanner} {tokens : List Token} (hs : s.Step tokens next)
    (h : ScanAt cs prev front s) :
    ∃ mid front, Laid cs prev tokens mid ∧ ScanAt cs mid front next := by
  cases hs with
  | char | hash | short => exact ⟨prev, front, .nil, h.keep _⟩
  | element hs hn hsp hb h0 hle => exact h.element hs hn hsp hb h0
  | close hs hc ho hle hclosed hb =>
    obtain ⟨q, k, hlaid, hscan, -⟩ := h.close hs hc ho hclosed
    exact ⟨some q, k, hlaid, hscan⟩
  | chain hs hc ho hle hclosed hb h0 hle' =>
    obtain ⟨q, k, hlaid, hscan, hstands⟩ := h.close hs hc ho hclosed
    obtain ⟨q', front', hopen, hscan'⟩ := hstands.openArgument hb h0 hscan.depths (some q)
      (by simp) fun r hr hk => hscan.cursor.follows hr (by simp [hk])
    exact ⟨some q', front', hlaid.append hopen, hscan'⟩

/-- **The tokens that a scanner completes are laid out** behind those before, up to the end of the
    text. -/
theorem Scanner.laid_run {s : Scanner} {tokens : List Token} (h : s.run = .ok tokens) :
    ∀ {prev : Option Placement} {front : Nat}, ScanAt cs prev front s →
      ∃ q, Laid cs prev tokens (some q) ∧ q.offset = cs.length := by
  refine Scanner.run_induction (motive := fun s tokens => ∀ {prev : Option Placement} {front : Nat},
    ScanAt cs prev front s → ∃ q, Laid cs prev tokens (some q) ∧ q.offset = cs.length) ?_ ?_ h
  · intro s hs _ prev front h
    obtain ⟨mid, htext, hcursor, -⟩ :=
      h.cursor.laid_textToken h.pending (Nat.le_trans (Nat.le_add_right _ _) h.stands.le)
    let q : Placement := ⟨front + s.pending.length, ⟨.endOfInput, "", s.position⟩⟩
    have hq : q.InText cs := by
      have := Placement.inText (u := []) (v := s.rest) .endOfInput h.stands.rest.symm h.stands.le
      rwa [← h.stands.position] at this
    have hend := h.stands.length_rest
    simp only [hs, List.length_nil, Nat.add_zero] at hend
    refine ⟨q, ?_, hend⟩
    rw [h.pendingPosition]
    exact htext.append (.cons hq hcursor.start (hcursor.follows rfl (by simp [q])) .nil)
  · intro s next tokens later hs ih prev front h
    obtain ⟨mid, front', hlaid, hscan⟩ := hs.scanAt h
    obtain ⟨q, hlater, hend⟩ := ih hscan
    exact ⟨q, hlaid.append hlater, hend⟩

theorem scanAt_ofList (cs : List Char) : ScanAt cs none 0 (Scanner.ofList cs) where
  cursor := ⟨fun _ => rfl, fun p hp => (by cases hp), fun p hp => (by cases hp)⟩
  stands := ⟨rfl, rfl, Nat.zero_le _⟩
  pending := rfl
  pendingPosition := rfl
  trimmed p hp := by cases hp
  opened _ := rfl
  depths a ha := by cases ha

end

end

/-! ## Whole texts -/

/-- A laid out sequence of tokens has placements in the text, each next to the one before. -/
theorem Laid.exists_placements {cs : List Char} {prev last : Option Placement} {tokens : List Token}
    (h : Laid cs prev tokens last) :
    ∃ ps : List Placement, ps.map (·.token) = tokens ∧ (∀ p ∈ ps, p.InText cs) ∧
      (prev.toList ++ ps).IsChain (Follows cs) ∧ (prev = none → ∀ p ∈ ps.head?, p.offset = 0) ∧
      (prev.toList ++ ps).getLast? = last := by
  induction h with
  | @nil prev => exact ⟨[], rfl, by simp, by cases prev <;> simp, by simp, by cases prev <;> simp⟩
  | @cons prev q tokens last hq h0 hf _ ih =>
    obtain ⟨ps, rfl, hin, hchain, -, hlast⟩ := ih
    refine ⟨q :: ps, rfl, ?_, ?_, ?_, ?_⟩
    · intro p hp
      rcases List.mem_cons.1 hp with rfl | hp
      exacts [hq, hin p hp]
    · cases prev with
      | none => exact hchain
      | some p => exact List.isChain_cons_cons.2 ⟨hf p rfl, hchain⟩
    · rintro hn p ⟨⟩
      exact h0 hn
    · cases prev with
      | none => exact hlast
      | some p => rw [← hlast]; simp

/-- The token `p` ends before the token `q` begins. -/
def Placement.EndsBefore (p q : Placement) : Prop := p.stop ≤ q.offset

instance : Trans Placement.EndsBefore Placement.EndsBefore Placement.EndsBefore where
  trans {_ q _} h h' := Nat.le_trans (Nat.le_trans h (Nat.le_add_right q.offset _)) h'

theorem Follows.endsBefore {cs : List Char} {p q : Placement} (h : Follows cs p q) :
    p.EndsBefore q := by
  have := h.offset
  unfold Placement.EndsBefore
  omega

/-- **Lexing loses nothing but the permitted spaces, and every position is exact.**  The tokens of a
    text stand in it one behind the other, from its first character to its end, and what lies
    between them is left out by the rules of `Follows`. -/
theorem tokenize_layout {source : String} {tokens : List Token} (h : tokenize source = .ok tokens) :
    ∃ (early : List Placement) (last : Placement),
      (early ++ [last]).map (·.token) = tokens ∧
      (∀ p ∈ early ++ [last], p.InText (sourceChars source)) ∧
      (∀ p ∈ (early ++ [last]).head?, p.offset = 0) ∧
      (early ++ [last]).IsChain (Follows (sourceChars source)) ∧
      (early ++ [last]).Pairwise Placement.EndsBefore ∧
      (∀ p ∈ early, p.token.kind ≠ .endOfInput) ∧
      last.token.kind = .endOfInput ∧ last.token.text = "" ∧
      last.offset = (sourceChars source).length := by
  obtain ⟨q, hlaid, hend⟩ := Scanner.laid_run h (scanAt_ofList _)
  obtain ⟨ps, hmap, hin, hchain, hstart, hlast⟩ := hlaid.exists_placements
  obtain ⟨early, e, he, hk, ht, hkinds⟩ := Scanner.run_eq_append h
  obtain ⟨early', last, rfl⟩ : ∃ early' last, ps = early' ++ [last] := by
    rcases List.eq_nil_or_concat ps with rfl | hps
    · simp [he] at hmap
    · simpa using hps
  obtain rfl : last = q := by simpa using hlast
  have hsplit := hmap
  rw [he, List.map_append, List.map_singleton] at hsplit
  obtain ⟨hearly, hlast'⟩ := List.append_inj' hsplit rfl
  obtain rfl : last.token = e := by simpa using hlast'
  have hpairwise := (hchain.imp fun _ _ hf => hf.endsBefore).pairwise
  exact ⟨early', last, hmap, hin, hstart rfl, hchain, hpairwise,
    fun p hp => hkinds _ (hearly ▸ List.mem_map_of_mem hp), hk, ht, hend⟩

/-- Spaces in front of and behind both runs of an argument. -/
theorem tokenize_layout_padded : ∃ (early : List Placement) (last : Placement),
    (early ++ [last]).map (·.token.text) = ["#a", "\x7b", " b ", "\x7d", ""] ∧
    (early ++ [last]).IsChain (Follows "#a  {  b  }".toList) := by
  have h : tokenize "#a  {  b  }" = .ok [⟨.elementName, "#a", ⟨1, 1⟩⟩,
      ⟨.argumentOpen, "\x7b", ⟨1, 5⟩⟩, ⟨.text, " b ", ⟨1, 7⟩⟩, ⟨.argumentClose, "\x7d", ⟨1, 11⟩⟩,
      ⟨.endOfInput, "", ⟨1, 12⟩⟩] := by decide +kernel
  obtain ⟨early, last, hmap, -, -, hchain, -⟩ := tokenize_layout h
  refine ⟨early, last, ?_, hchain⟩
  have htexts := congrArg (List.map (·.text)) hmap
  rwa [List.map_map] at htexts

end BraceMarkup
