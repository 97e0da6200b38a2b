/-
  The tokens of a text fit together.

  The scanner never completes a token that the tree builder has no place for:
  an opening run follows a name or a closing run, and a closing run closes the
  innermost argument with as many braces as opened it.  So a text whose braces
  are in order can only be refused for its nesting.

  * `unclosed`: how many arguments are open behind some tokens;
  * `TooDeep`: a name inside of too many open arguments;
  * `Fits`: a tree under construction can take some tokens, up to the first
    name that stands too deep;
  * `Scanner.fits_run`: the tokens that a scanner completes fit a tree whose
    open arguments are those of the scanner;
  * `ofTokens_tokenize`: a text whose tokens can be had is refused exactly if a
    name in it stands too deep, and then at the first such name.
-/
import BraceMarkup.Proofs.ParseTree.Builder
import BraceMarkup.Proofs.Token.Step
import BraceMarkup.Source
import Mathlib.Control.Monad.Basic

namespace BraceMarkup

/-! ## Open arguments among tokens -/

/-- How many arguments are open behind a token, if `n` are open in front of it. -/
def openBehind (n : Nat) (token : Token) : Nat :=
  match token.kind with
  | .argumentOpen => n + 1
  | .argumentClose => n - 1
  | _ => n

/-- How many of the arguments that some tokens open they leave open. -/
def unclosed (tokens : List Token) : Nat := tokens.foldl openBehind 0

/-- Behind the tokens `before` stands the name of an element that is inside of too many open
    arguments. -/
def TooDeep (tokens before : List Token) (name : Token) : Prop :=
  (∃ after, tokens = before ++ name :: after) ∧ name.kind = .elementName ∧
    maxNesting ≤ unclosed before

/-- The first name that stands too deep, if `n` arguments are open in front of the tokens. -/
def firstTooDeep? (n : Nat) : List Token → Option Token
  | [] => none
  | token :: rest =>
    if token.kind = .elementName ∧ maxNesting ≤ n then some token
    else firstTooDeep? (openBehind n token) rest

theorem firstTooDeep?_eq_none {n : Nat} {tokens before after : List Token} {name : Token}
    (h : firstTooDeep? n tokens = none) (ht : tokens = before ++ name :: after)
    (hk : name.kind = .elementName) : before.foldl openBehind n < maxNesting := by
  subst ht
  induction before generalizing n with
  | nil =>
    simp only [List.nil_append, firstTooDeep?] at h
    split at h
    · cases h
    · next hd => exact Nat.lt_of_not_le fun hle => hd ⟨hk, hle⟩
  | cons token before ih =>
    simp only [List.cons_append, firstTooDeep?] at h
    split at h
    · cases h
    · exact ih h

theorem firstTooDeep?_eq_some {n : Nat} {tokens : List Token} {name : Token}
    (h : firstTooDeep? n tokens = some name) :
    ∃ before after, tokens = before ++ name :: after ∧ name.kind = .elementName ∧
      maxNesting ≤ before.foldl openBehind n ∧ ∀ b m a, tokens = b ++ m :: a →
        m.kind = .elementName → maxNesting ≤ b.foldl openBehind n → before.length ≤ b.length := by
  induction tokens generalizing n with
  | nil => cases h
  | cons token rest ih =>
    simp only [firstTooDeep?] at h
    split at h
    · next hd =>
      cases h
      exact ⟨[], rest, rfl, hd.1, hd.2, fun _ _ _ _ _ _ => Nat.zero_le _⟩
    · next hd =>
      obtain ⟨before, after, rfl, hk, hm, hfirst⟩ := ih h
      refine ⟨token :: before, after, rfl, hk, hm, fun b m a hb hkm hmb => ?_⟩
      cases b with
      | nil =>
        obtain ⟨rfl, -⟩ := List.cons.inj hb
        exact absurd ⟨hkm, hmb⟩ hd
      | cons t b =>
        rw [List.cons_append, List.cons.injEq] at hb
        obtain ⟨rfl, hb⟩ := hb
        exact Nat.succ_le_succ (hfirst b m a hb hkm hmb)

/-! ## Trees that take all tokens -/

/-- A tree under construction takes the tokens up to their end, or up to the first name that stands
    too deep. -/
def Fits (t : TreeBuilder) (tokens : List Token) : Prop :=
  ∀ (first : Token) (ending : Position),
    match firstTooDeep? t.opened.length tokens with
    | some name => t.run first ending tokens = .error ⟨.nestingTooDeep, name.position⟩
    | none => ∃ tree, t.run first ending tokens = .ok tree

section
variable {t : TreeBuilder} {token : Token} {tokens : List Token}

theorem Fits.end (hk : token.kind = .endOfInput) (ho : t.opened = []) : Fits t [token] := by
  intro first ending
  simp only [firstTooDeep?, hk, reduceCtorEq, false_and, if_false]
  exact ⟨_, TreeBuilder.run_of_ends ⟨hk, by simp [ho]⟩ []⟩

/-- A token that the tree takes, and that leaves it with as many open arguments as are open behind
    the token. -/
theorem Fits.cons {next : TreeBuilder} (hk : token.kind ≠ .endOfInput)
    (hn : ¬ (token.kind = .elementName ∧ maxNesting ≤ t.opened.length))
    (hs : t.step token = .ok next) (ho : next.opened.length = openBehind t.opened.length token)
    (h : Fits next tokens) : Fits t (token :: tokens) := by
  intro first ending
  rw [firstTooDeep?, if_neg hn, ← ho, TreeBuilder.run_of_step hk hs]
  exact h first ending

theorem Fits.text (hk : token.kind = .text)
    (h : Fits { t with nodes := .ofText token :: t.nodes } tokens) :
    Fits t (token :: tokens) :=
  h.cons (by simp [hk]) (by simp [hk]) (TreeBuilder.step_text hk) (by simp [openBehind, hk])

/-- A name fits as long as there is room for an element, and otherwise is the first that stands too
    deep. -/
theorem Fits.name (hk : token.kind = .elementName) (hroom : t.opened.length ≤ maxNesting)
    (h : t.opened.length < maxNesting →
      Fits { t with nodes := .element token (elementName token) [] :: t.nodes } tokens) :
    Fits t (token :: tokens) := by
  have hstep := TreeBuilder.step_elementName (t := t) hk
  rcases Nat.lt_or_eq_of_le hroom with hlt | heq
  · rw [if_neg (Nat.ne_of_lt hlt)] at hstep
    exact (h hlt).cons (by simp [hk]) (by simp [Nat.not_le.2 hlt]) hstep (by simp [openBehind, hk])
  · rw [if_pos heq] at hstep
    intro first ending
    rw [firstTooDeep?, if_pos ⟨hk, Nat.le_of_eq heq.symm⟩]
    exact TreeBuilder.run_of_step_eq_error hstep (TreeBuilder.not_ends (by simp [hk])) tokens

theorem Fits.open {head : Token} {name : String} {arguments : List ParseBlock}
    {before : List ParseNode} (hk : token.kind = .argumentOpen)
    (hn : t.nodes = .element head name arguments :: before)
    (h : Fits ⟨[], ⟨token, head, name, arguments, before⟩ :: t.opened⟩ tokens) :
    Fits t (token :: tokens) :=
  h.cons (by simp [hk]) (by simp [hk]) (TreeBuilder.step_argumentOpen hk hn)
    (by simp [openBehind, hk])

theorem Fits.close {innermost : OpenElement} {outer : List OpenElement}
    (hk : token.kind = .argumentClose) (ho : t.opened = innermost :: outer)
    (hsize : token.text.utf8ByteSize = innermost.opening.text.utf8ByteSize)
    (h : Fits ⟨.element innermost.head innermost.name (innermost.arguments ++
      [⟨innermost.opening, t.nodes.reverse, token⟩]) :: innermost.before, outer⟩ tokens) :
    Fits t (token :: tokens) :=
  h.cons (by simp [hk]) (by simp [hk]) ((TreeBuilder.step_argumentClose hk ho).trans (if_pos hsize))
    (by simp [openBehind, hk, ho])

theorem Fits.textToken {p : Position} {pending : List Char}
    (h : ∀ nodes, Fits ⟨nodes, t.opened⟩ tokens) : Fits t (textToken p pending ++ tokens) := by
  unfold BraceMarkup.textToken
  split
  · exact h t.nodes
  · exact Fits.text rfl (h _)

end

/-! ## What the scanner completes -/

/-- The open arguments of the scanner and of the tree are the same, and there are not too many. -/
structure Agrees (opened : List OpenArgument) (t : TreeBuilder) : Prop where
  depths : t.opened.map (·.opening.text.utf8ByteSize) = opened.map (·.depth)
  room : t.opened.length ≤ maxNesting

/-- An argument can begin: an element stands last, and it is not nested too deep. -/
structure Ready (t : TreeBuilder) : Prop where
  element : ∃ head name arguments before, t.nodes = .element head name arguments :: before
  room : t.opened.length < maxNesting

theorem Agrees.nodes {opened : List OpenArgument} {t : TreeBuilder} (h : Agrees opened t)
    (nodes : List ParseNode) : Agrees opened ⟨nodes, t.opened⟩ := ⟨h.depths, h.room⟩

/-- The tree takes the run that opens an argument. -/
theorem Fits.openArgument {s : Scanner} {braces : Nat} {t : TreeBuilder} {tokens : List Token}
    (hb : braces = runLength '{' s.rest) (ha : Agrees s.opened t) (hr : Ready t)
    (h : ∀ t', Agrees (s.openArgument braces).2.opened t' → Fits t' tokens) :
    Fits t ((s.openArgument braces).1 :: tokens) := by
  obtain ⟨_, _, _, _, hn⟩ := hr.element
  refine Fits.open rfl hn (h _ ⟨?_, hr.room⟩)
  rw [Scanner.openArgument_opened, Scanner.openArgument_fst, hb, take_runLength]
  simp [ha.depths, utf8ByteSize_replicate (c := '{') rfl]

/-- The tree takes the runs that close arguments, and is ready for an argument behind them. -/
theorem Fits.closed {p : Position} {count : Nat} {opened left : List OpenArgument}
    {closed tokens : List Token} (hc : Closed p count opened closed left) {t : TreeBuilder}
    (ha : Agrees opened t) (hr : count = 0 → Ready t)
    (h : ∀ t', Agrees left t' → Ready t' → Fits t' tokens) : Fits t (closed ++ tokens) := by
  induction hc generalizing t with
  | done => exact h t ha (hr rfl)
  | @next p count a outer closed left _ ih =>
    obtain ⟨nodes, opened⟩ := t
    cases opened with
    | nil => exact absurd ha.depths (by simp)
    | cons innermost rest =>
      obtain ⟨hsize, hdepths⟩ := List.cons.inj ha.depths
      have hroom : rest.length < maxNesting := ha.room
      refine Fits.close rfl rfl ?_
        (ih ⟨hdepths, Nat.le_of_lt hroom⟩ (fun _ => ⟨⟨_, _, _, _, rfl⟩, hroom⟩) h)
      simp only [utf8ByteSize_replicate (c := '}') rfl, hsize]

/-- **The tokens that a scanner completes fit** every tree with the same open arguments. -/
theorem Scanner.fits_run {s : Scanner} {tokens : List Token} (h : s.run = .ok tokens) :
    ∀ t, Agrees s.opened t → Fits t tokens := by
  refine Scanner.run_induction (motive := fun s tokens => ∀ t, Agrees s.opened t → Fits t tokens)
    ?_ ?_ h
  · intro s _ ho t ha
    have : t.opened = [] := by simpa [ho] using ha.depths
    exact Fits.textToken fun nodes => Fits.end rfl this
  · intro s next tokens later hs ih t ha
    cases hs with
    | char | hash | short => exact ih t ha
    | element hs hn hsp hb h0 hle =>
      simp only [List.append_assoc, List.cons_append, List.nil_append]
      refine Fits.textToken fun nodes => Fits.name rfl ha.room fun hroom => ?_
      exact Fits.openArgument hb (ha.nodes _) ⟨⟨_, _, _, _, rfl⟩, hroom⟩ fun t' ha' => ih t' ha'
    | close hs hc hopened hle hclosed hb =>
      have hcount := Nat.ne_of_gt (hc ▸ runLength_pos hs)
      simp only [List.append_assoc]
      refine Fits.textToken fun nodes => ?_
      refine Fits.closed (Closed.of_closeArguments hclosed) (ha.nodes nodes)
        (fun h0 => absurd h0 hcount) fun t' ha' _ => ?_
      exact ih t' ha'
    | chain hs hc hopened hle hclosed hb h0 hle' =>
      have hcount := Nat.ne_of_gt (hc ▸ runLength_pos hs)
      simp only [List.append_assoc, List.cons_append, List.nil_append]
      refine Fits.textToken fun nodes => ?_
      refine Fits.closed (Closed.of_closeArguments hclosed) (ha.nodes nodes)
        (fun h0 => absurd h0 hcount) fun t' ha' hr => ?_
      exact Fits.openArgument hb ha' hr fun t'' ha'' => ih t'' ha''

/-! ## Whole texts -/

theorem ofTokens_tokenize_cases {source : String} {tokens : List Token}
    (h : tokenize source = .ok tokens) :
    match firstTooDeep? 0 tokens with
    | some name => ParseBlock.ofTokens tokens = .error ⟨.nestingTooDeep, name.position⟩
    | none => ∃ tree, ParseBlock.ofTokens tokens = .ok tree := by
  have hfits := Scanner.fits_run h .empty ⟨rfl, Nat.zero_le _⟩
  cases tokens with
  | nil =>
    obtain ⟨early, last, he, -⟩ := Scanner.run_eq_append h
    simp at he
  | cons first rest =>
    rw [ParseBlock.ofTokens_cons]
    exact hfits first _

/-- **A text whose tokens can be had is refused for its nesting only.**  It has a tree unless a
    name stands too deep, the first such name is where it is refused otherwise, and no other
    fault of a sequence of tokens ever comes out of a text. -/
theorem ofTokens_tokenize (source : String) :
    (∀ tokens, tokenize source = .ok tokens →
      ((∃ tree, ParseBlock.ofTokens tokens = .ok tree) ↔
        ¬ ∃ before name, TooDeep tokens before name) ∧
      ∀ before name, TooDeep tokens before name →
        (∀ before' name', TooDeep tokens before' name' → before.length ≤ before'.length) →
        ParseBlock.ofTokens tokens = .error ⟨.nestingTooDeep, name.position⟩) ∧
    ∀ e, Block.ofSource source = .error (.parse e) → e.kind = .nestingTooDeep := by
  refine ⟨fun tokens h => ?_, fun e he => ?_⟩
  · have hcases := ofTokens_tokenize_cases h
    cases hf : firstTooDeep? 0 tokens with
    | none =>
      simp only [hf] at hcases
      have hnone : ¬ ∃ before name, TooDeep tokens before name := by
        rintro ⟨before, name, ⟨after, ht⟩, hk, hdeep⟩
        exact absurd hdeep (Nat.not_le.2 (firstTooDeep?_eq_none hf ht hk))
      exact ⟨⟨fun _ => hnone, fun _ => hcases⟩,
        fun before name hd => absurd ⟨before, name, hd⟩ hnone⟩
    | some first =>
      simp only [hf] at hcases
      obtain ⟨before, after, ht, hk, hdeep, hfirst⟩ := firstTooDeep?_eq_some hf
      have htoo : TooDeep tokens before first := ⟨⟨after, ht⟩, hk, hdeep⟩
      refine ⟨⟨fun ⟨tree, htree⟩ => ?_, fun hnone => absurd ⟨_, _, htoo⟩ hnone⟩, ?_⟩
      · rw [hcases] at htree; cases htree
      · rintro before' name ⟨⟨after', ht'⟩, hk', hdeep'⟩ hmin
        have hlen : before'.length = before.length :=
          Nat.le_antisymm (hmin before first htoo) (hfirst before' name after' ht' hk' hdeep')
        obtain ⟨-, heq⟩ := List.append_inj (ht.symm.trans ht') hlen.symm
        rw [hcases, (List.cons.inj heq).1]
  · obtain ⟨tokens, ht, hp⟩ := Block.ofSource_eq_parse_error_iff.1 he
    have hcases := ofTokens_tokenize_cases ht
    cases hf : firstTooDeep? 0 tokens with
    | none =>
      simp only [hf, hp] at hcases
      exact absurd hcases (by simp)
    | some name =>
      simp only [hf, hp, Except.error.injEq] at hcases
      rw [hcases]

/-- An element with two arguments, in the first of which stands another one. -/
theorem ofTokens_tokenize_chained :
    ∃ tokens tree, tokenize "#a{#b{}}{}" = .ok tokens ∧ ParseBlock.ofTokens tokens = .ok tree := by
  have h : tokenize "#a{#b{}}{}" = .ok [
      ⟨.elementName, "#a", ⟨1, 1⟩⟩, ⟨.argumentOpen, "\x7b", ⟨1, 3⟩⟩,
      ⟨.elementName, "#b", ⟨1, 4⟩⟩, ⟨.argumentOpen, "\x7b", ⟨1, 6⟩⟩,
      ⟨.argumentClose, "\x7d", ⟨1, 7⟩⟩, ⟨.argumentClose, "\x7d", ⟨1, 8⟩⟩,
      ⟨.argumentOpen, "\x7b", ⟨1, 9⟩⟩, ⟨.argumentClose, "\x7d", ⟨1, 10⟩⟩,
      ⟨.endOfInput, "", ⟨1, 11⟩⟩] := by decide +kernel
  obtain ⟨tree, htree⟩ := ((ofTokens_tokenize "#a{#b{}}{}").1 _ h).1.2 <| by
    rintro ⟨before, name, ⟨after, ht⟩, hk, hdeep⟩
    exact absurd hdeep (Nat.not_le.2 (firstTooDeep?_eq_none (by decide) ht hk))
  exact ⟨_, tree, h, htree⟩

end BraceMarkup
