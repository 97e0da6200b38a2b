/-
  Which braces open and close arguments.

  What the braces of a text do can be told from the text alone, run by run.  A
  run of opening braces opens an argument if it stands behind the name of an
  element, or right behind a run that closes arguments, and is as long as the
  innermost open argument asks for.  A run of closing braces closes arguments,
  innermost first, as many as it covers; braces left over are a fault.  A run
  that is too short is text.

  * `RunAt`: a run of a character that cannot be made longer;
  * `InName`, `BehindName`: an offset in or behind the name of an element;
  * `ArgumentAt`: an argument, by the run that opens it;
  * `BraceStep`, `OpenAt`: the arguments that are open at an offset, read from
    the beginning of the text;
  * `Excess`: a closing run with braces left over;
  * `FirstFault`: the fault of a text;
  * `BraceStep.unique`, `OpenAt.eq_of_stuck`: there is one way to read a text,
    up to one place;
  * `FirstFault.unique`: a text has one fault at most.
-/
import BraceMarkup.Proofs.Token.Layout
import Mathlib.Logic.Relation

namespace BraceMarkup

open Relation

/-! ## Runs of a character -/

/-- A run of the character `c` begins at offset `k` and has `n` characters; neither in front of it
    nor behind it stands another `c`. -/
structure RunAt (cs : List Char) (c : Char) (k n : Nat) : Prop where
  pos : 0 < n
  inside : ∀ i < n, cs[k + i]? = some c
  behind : cs[k + n]? ≠ some c
  before : ∀ i, i + 1 = k → cs[i]? ≠ some c

/-- The offset `k` is in the name of an element or at its end: behind a `#` and name characters. -/
def InName (cs : List Char) (k : Nat) : Prop :=
  ∃ hash < k, cs[hash]? = some '#' ∧
    ∀ i, hash < i → i < k → ∃ c, cs[i]? = some c ∧ isNameChar c = true

/-- The offset `k` is behind the name of an element and any spaces. -/
def BehindName (cs : List Char) (k : Nat) : Prop :=
  ∃ stop ≤ k, InName cs stop ∧ ∀ i, stop ≤ i → i < k → cs[i]? = some ' '

section
variable {cs : List Char} {c d : Char} {k n m : Nat}

theorem RunAt.first (h : RunAt cs c k n) : cs[k]? = some c := h.inside 0 h.pos

theorem RunAt.unique (h : RunAt cs c k n) (h' : RunAt cs c k m) : n = m := by
  rcases Nat.lt_trichotomy n m with hlt | heq | hlt
  · exact absurd (h'.inside n hlt) h.behind
  · exact heq
  · exact absurd (h.inside m hlt) h'.behind

/-- Runs of different characters begin at different offsets. -/
theorem RunAt.char_eq (h : RunAt cs c k n) (h' : RunAt cs d k m) : c = d :=
  Option.some.inj (h.first.symm.trans h'.first)

end

/-! ## Open arguments -/

/-- An argument of a text, by the run of braces that opens it. -/
structure ArgumentAt (cs : List Char) where
  offset : Nat
  depth : Nat
  run : RunAt cs '{' offset depth

section
variable {cs : List Char}

/-- How many closing braces some arguments take. -/
def braceCount : List (ArgumentAt cs) → Nat
  | [] => 0
  | innermost :: outer => innermost.depth + braceCount outer

@[simp] theorem braceCount_nil : braceCount ([] : List (ArgumentAt cs)) = 0 := rfl

@[simp] theorem braceCount_cons (a : ArgumentAt cs) (rest : List (ArgumentAt cs)) :
    braceCount (a :: rest) = a.depth + braceCount rest := rfl

/-- The length of run that the innermost of the open arguments asks for; one outside of all
    arguments. -/
def asked : List (ArgumentAt cs) → Nat
  | [] => 1
  | innermost :: _ => innermost.depth

variable (cs) in
/-- Reads on at an offset, with some arguments open, innermost first. -/
inductive BraceStep : Nat × List (ArgumentAt cs) → Nat × List (ArgumentAt cs) → Prop
  /-- A character of text: no run begins here that opens an argument, and no closing run but one
      that is too short for the innermost argument. -/
  | text {k opened} : k < cs.length →
      (∀ n, RunAt cs '{' k n → BehindName cs k → n < asked opened) →
      (∀ n, RunAt cs '}' k n → opened ≠ [] ∧ n < asked opened) →
      BraceStep (k, opened) (k + 1, opened)
  /-- A run behind a name opens an argument. -/
  | opens {k n opened} (run : RunAt cs '{' k n) : BehindName cs k → asked opened ≤ n →
      BraceStep (k, opened) (k + n, ⟨k, n, run⟩ :: opened)
  /-- A run closes arguments exactly, and no run behind it opens one. -/
  | closes {k closed opened} : RunAt cs '}' k (braceCount closed) →
      (∀ n, RunAt cs '{' (k + braceCount closed) n → n < asked opened) →
      BraceStep (k, closed ++ opened) (k + braceCount closed, opened)
  /-- A run closes arguments exactly, and the run behind it opens a further one. -/
  | chains {k n closed opened} : RunAt cs '}' k (braceCount closed) →
      (run : RunAt cs '{' (k + braceCount closed) n) → asked opened ≤ n →
      BraceStep (k, closed ++ opened)
        (k + braceCount closed + n, ⟨k + braceCount closed, n, run⟩ :: opened)

variable (cs) in
/-- Read from the beginning of the text up to offset `k`, these arguments are open, innermost
    first. -/
def OpenAt (k : Nat) (opened : List (ArgumentAt cs)) : Prop :=
  ReflTransGen (BraceStep cs) (0, []) (k, opened)

/-! ## Faults -/

variable (cs) in
/-- The closing run at offset `k` closes the arguments `closed`, the innermost ones, and has `count`
    braces left over: outside of all arguments, or too few for the next argument.  A run that closes
    no argument is text unless no argument is open. -/
structure Excess (k : Nat) (closed opened : List (ArgumentAt cs)) (count : Nat) : Prop where
  reached : OpenAt cs k (closed ++ opened)
  run : RunAt cs '}' k (braceCount closed + count)
  pos : 0 < count
  short : ∀ a ∈ opened.head?, count < a.depth
  outside : closed = [] → opened = []

variable (cs) in
/-- The fault of a text and its position: the first closing braces that are left over, or the run
    that opened the innermost argument which is open at the end. -/
inductive FirstFault : LexError → Prop
  | excess {k closed opened count} : Excess cs k closed opened count →
      (∀ j closed opened count, j < k → ¬ Excess cs j closed opened count) →
      FirstFault ⟨.tooManyClosingBraces count, lineAndColumn (cs.take (k + braceCount closed))⟩
  | unterminated {a outer} : OpenAt cs cs.length (a :: outer) →
      (∀ k closed opened count, ¬ Excess cs k closed opened count) →
      FirstFault ⟨.unterminatedArgument a.depth, lineAndColumn (cs.take a.offset)⟩

/-! ## One way to read a text -/

section
variable {k n m : Nat} {closed opened closed' opened' : List (ArgumentAt cs)}

/-- The arguments that a number of braces closes, innermost first: what is left over is too little
    for the next one. -/
theorem closed_unique (h : closed ++ opened = closed' ++ opened')
    (hcount : braceCount closed + n = braceCount closed' + m)
    (hn : ∀ a ∈ opened.head?, n < a.depth) (hm : ∀ a ∈ opened'.head?, m < a.depth) :
    closed = closed' ∧ opened = opened' ∧ n = m := by
  induction closed generalizing closed' with
  | nil =>
    cases closed' with
    | nil => exact ⟨rfl, h, by simpa using hcount⟩
    | cons a rest =>
      obtain rfl : opened = a :: (rest ++ opened') := h
      have hlt := hn a rfl
      rw [braceCount_nil, braceCount_cons] at hcount
      omega
  | cons a rest ih =>
    cases closed' with
    | nil =>
      obtain rfl : a :: (rest ++ opened) = opened' := h
      have hlt := hm a rfl
      rw [braceCount_nil, braceCount_cons] at hcount
      omega
    | cons b rest' =>
      rw [List.cons_append, List.cons_append, List.cons.injEq] at h
      obtain ⟨rfl, h⟩ := h
      rw [braceCount_cons, braceCount_cons] at hcount
      obtain ⟨rfl, hopened, hnm⟩ := ih h (by omega)
      exact ⟨rfl, hopened, hnm⟩

/-- Arguments that are closed exactly are told by the number of braces. -/
theorem closed_unique_exact (h : closed ++ opened = closed' ++ opened')
    (hcount : braceCount closed = braceCount closed') : closed = closed' ∧ opened = opened' := by
  have hpos : ∀ {l : List (ArgumentAt cs)}, ∀ a ∈ l.head?, 0 < a.depth := fun a _ => a.run.pos
  obtain ⟨hc, ho, -⟩ := closed_unique (n := 0) (m := 0) h hcount hpos hpos
  exact ⟨hc, ho⟩

/-- A run that closes arguments is as long as the innermost one asks for. -/
theorem asked_le_braceCount (h : 0 < braceCount closed) :
    asked (closed ++ opened) ≤ braceCount closed := by
  cases closed with
  | nil => exact absurd h (Nat.lt_irrefl 0)
  | cons a rest =>
    rw [braceCount_cons]
    exact Nat.le_add_right _ _

variable {p q r : Nat × List (ArgumentAt cs)}

/-- Every step reads something. -/
theorem BraceStep.lt (h : BraceStep cs p q) : p.1 < q.1 := by
  cases h with
  | text => exact Nat.lt_succ_self _
  | opens run => exact Nat.lt_add_of_pos_right run.pos
  | closes run => exact Nat.lt_add_of_pos_right run.pos
  | chains run run' =>
    have := run.pos
    show _ < _ + _ + _
    omega

/-- **There is one way to read on.** -/
theorem BraceStep.unique (h : BraceStep cs p q) (h' : BraceStep cs p r) : q = r := by
  cases h with
  | text _ hopen hclose =>
    cases h' with
    | text => rfl
    | opens run hname hle => exact absurd hle (Nat.not_le.2 (hopen _ run hname))
    | closes run | chains run =>
      exact absurd (asked_le_braceCount run.pos) (Nat.not_le.2 (hclose _ run).2)
  | opens run hname hle =>
    cases h' with
    | text _ hopen _ => exact absurd hle (Nat.not_le.2 (hopen _ run hname))
    | opens run' =>
      obtain rfl := run.unique run'
      rfl
    | closes run' | chains run' => exact absurd (run.char_eq run') (by decide)
  | @closes k closed opened run hbehind =>
    generalize hall : closed ++ opened = all at h'
    cases h' with
    | text _ _ hclose =>
      rw [← hall] at hclose
      exact absurd (asked_le_braceCount run.pos) (Nat.not_le.2 (hclose _ run).2)
    | opens run' => exact absurd (run.char_eq run') (by decide)
    | @closes _ closed' opened' run' =>
      obtain ⟨rfl, rfl⟩ := closed_unique_exact hall (run.unique run')
      rfl
    | @chains _ _ closed' opened' run' runs hle =>
      obtain ⟨rfl, rfl⟩ := closed_unique_exact hall (run.unique run')
      exact absurd hle (Nat.not_le.2 (hbehind _ runs))
  | @chains k n closed opened run runs hle =>
    generalize hall : closed ++ opened = all at h'
    cases h' with
    | text _ _ hclose =>
      rw [← hall] at hclose
      exact absurd (asked_le_braceCount run.pos) (Nat.not_le.2 (hclose _ run).2)
    | opens run' => exact absurd (run.char_eq run') (by decide)
    | @closes _ closed' opened' run' hbehind =>
      obtain ⟨rfl, rfl⟩ := closed_unique_exact hall (run.unique run')
      exact absurd hle (Nat.not_le.2 (hbehind _ runs))
    | @chains _ _ closed' opened' run' runs' =>
      obtain ⟨rfl, rfl⟩ := closed_unique_exact hall (run.unique run')
      obtain rfl := runs.unique runs'
      rfl

theorem BraceStep.rightUnique : Relator.RightUnique (BraceStep cs) :=
  fun _ _ _ => BraceStep.unique

theorem le_of_reaches (h : ReflTransGen (BraceStep cs) p q) : p.1 ≤ q.1 := by
  induction h with
  | refl => exact Nat.le_refl _
  | tail _ hstep ih => exact Nat.le_trans ih (Nat.le_of_lt hstep.lt)

/-- A place that is no further back than one where the reading stops is that one. -/
theorem OpenAt.eq_of_stuck (h : OpenAt cs k opened) (h' : OpenAt cs m opened')
    (hstuck : ∀ q, ¬ BraceStep cs (k, opened) q) (hle : k ≤ m) : m = k ∧ opened' = opened := by
  have hsame : (k, opened) = (m, opened') := by
    rcases ReflTransGen.total_of_right_unique BraceStep.rightUnique h h' with hkm | hmk
    · rcases ReflTransGen.cases_head hkm with heq | ⟨q, hstep, -⟩
      · exact heq
      · exact absurd hstep (hstuck q)
    · rcases ReflTransGen.cases_tail hmk with heq | ⟨q, hreach, hstep⟩
      · exact heq
      · -- the first place would be further on than the second
        have hm := le_of_reaches hreach
        have hk := hstep.lt
        exact absurd hle (Nat.not_le.2 (Nat.lt_of_le_of_lt hm hk))
  cases hsame
  exact ⟨rfl, rfl⟩

/-! ## One fault at most -/

/-- The reading stops at the end of the text. -/
theorem not_braceStep_length (q : Nat × List (ArgumentAt cs)) :
    ¬ BraceStep cs (cs.length, opened) q := by
  have hend : ∀ {c n}, ¬ RunAt cs c cs.length n := fun run => by simpa using run.first
  intro h
  generalize hp : (cs.length, opened) = p at h
  cases h with
  | text hlt => cases hp; exact absurd hlt (Nat.lt_irrefl _)
  | opens run | closes run | chains run => cases hp; exact hend run

/-- The reading stops at braces that are left over. -/
theorem Excess.not_braceStep (h : Excess cs k closed opened n) (q : Nat × List (ArgumentAt cs)) :
    ¬ BraceStep cs (k, closed ++ opened) q := by
  -- the braces would be covered exactly by other arguments
  have hexact : ∀ {closed' opened'}, closed ++ opened = closed' ++ opened' →
      ¬ RunAt cs '}' k (braceCount closed') := fun hall run => by
    have hlen := h.run.unique run
    obtain ⟨-, -, h0⟩ := closed_unique (m := 0) hall hlen h.short fun a _ => a.run.pos
    exact Nat.ne_of_gt h.pos h0
  intro hstep
  generalize hall : closed ++ opened = all at hstep
  cases hstep with
  | text _ _ hclose =>
    obtain ⟨hne, hlt⟩ := hclose _ h.run
    cases closed with
    | nil => exact hne (hall.symm.trans (h.outside rfl))
    | cons a rest =>
      rw [← hall, List.cons_append, braceCount_cons] at hlt
      simp only [asked] at hlt
      omega
  | opens run => exact absurd (h.run.char_eq run) (by decide)
  | closes run | chains run => exact hexact hall run

/-- The reading does not go on past braces that are left over. -/
theorem Excess.eq_of_le (h : Excess cs k closed opened n) (h' : OpenAt cs m opened') (hle : k ≤ m) :
    m = k ∧ opened' = closed ++ opened :=
  h.reached.eq_of_stuck h' h.not_braceStep hle

theorem OpenAt.not_excess_before (h : OpenAt cs k opened') (j : Nat)
    (closed opened : List (ArgumentAt cs)) (count : Nat) (hlt : j < k) :
    ¬ Excess cs j closed opened count := fun he =>
  Nat.ne_of_gt hlt (he.eq_of_le h (Nat.le_of_lt hlt)).1

theorem Excess.lt_length (h : Excess cs k closed opened n) : k < cs.length :=
  (List.getElem?_eq_some_iff.1 h.run.first).1

/-- A text that can be read to its end has no braces that are left over. -/
theorem OpenAt.not_excess (h : OpenAt cs cs.length opened') (k : Nat)
    (closed opened : List (ArgumentAt cs)) (count : Nat) : ¬ Excess cs k closed opened count :=
  fun he => h.not_excess_before k closed opened count he.lt_length he

/-- The first braces that are left over are told by where their run begins. -/
theorem Excess.unique (h : Excess cs k closed opened n) (h' : Excess cs k closed' opened' m) :
    closed = closed' ∧ n = m := by
  have hall := (h'.eq_of_le h.reached (Nat.le_refl k)).2
  obtain ⟨hc, -, hn⟩ := closed_unique hall (h.run.unique h'.run) h.short h'.short
  exact ⟨hc, hn⟩

/-- **A text has one fault at most.** -/
theorem FirstFault.unique {e e' : LexError} (h : FirstFault cs e) (h' : FirstFault cs e') :
    e = e' := by
  cases h with
  | @excess k _ _ _ hexcess hfirst =>
    cases h' with
    | @excess k' _ _ _ hexcess' hfirst' =>
      obtain rfl : k = k' := by
        rcases Nat.lt_trichotomy k k' with hlt | heq | hlt
        · exact absurd hexcess (hfirst' k _ _ _ hlt)
        · exact heq
        · exact absurd hexcess' (hfirst k' _ _ _ hlt)
      obtain ⟨rfl, rfl⟩ := hexcess.unique hexcess'
      rfl
    | unterminated _ hnone => exact absurd hexcess (hnone _ _ _ _)
  | unterminated hopen hnone =>
    cases h' with
    | excess hexcess' => exact absurd hexcess' (hnone _ _ _ _)
    | unterminated hopen' =>
      have := (hopen.eq_of_stuck hopen' not_braceStep_length (Nat.le_refl _)).2
      cases this
      rfl

/-- A text whose arguments are all closed at its end has no fault. -/
theorem OpenAt.not_firstFault (h : OpenAt cs cs.length []) (e : LexError) : ¬ FirstFault cs e := by
  intro he
  cases he with
  | excess hexcess => exact h.not_excess _ _ _ _ hexcess
  | unterminated hopen =>
    cases (hopen.eq_of_stuck h not_braceStep_length (Nat.le_refl _)).2

end

end

end BraceMarkup
