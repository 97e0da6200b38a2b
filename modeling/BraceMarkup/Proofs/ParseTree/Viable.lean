/-
  Faults come at the first token that cannot be continued.

  A tree under construction can always be completed: what is open in it is
  closed by runs of the right lengths, innermost first, and then the text may
  end.  So a sequence of tokens goes on to be viable until a token comes that
  the tree cannot take, and from there on no continuation helps.

  * `Viable`: some continuation of a sequence is read as a tree;
  * `unclosedOpenings`: the tokens that opened the arguments which are still
    open behind a sequence;
  * `Refused`: the faults of single tokens, by what is open in front of them;
  * `TreeBuilder.exists_completion`: every tree can be completed;
  * `TreeBuilder.run_eq_error`: a run that fails has come to the end of its
    tokens, or to a token that is refused;
  * `ParseBlock.ofTokens_eq_error`: **the fault of a sequence** is that of its
    end if it is viable, and otherwise that of the first token behind which it
    is not.
-/
import BraceMarkup.Proofs.ParseTree.Acceptance
import BraceMarkup.Source
import Mathlib.Order.Bounds.Defs

namespace BraceMarkup

/-! ## What a fault can be -/

/-- Some continuation of the tokens is read as a tree. -/
def Viable (tokens : List Token) : Prop :=
  ∃ later tree, ParseBlock.ofTokens (tokens ++ later) = .ok tree

/-- The openings that are unclosed behind a token, if `opened` are in front of it. -/
def openingsBehind (opened : List Token) (token : Token) : List Token :=
  match token.kind with
  | .argumentOpen => token :: opened
  | .argumentClose => opened.tail
  | .text | .elementName | .endOfInput => opened

/-- The tokens that opened the arguments which some tokens leave open, innermost first. -/
def unclosedOpenings (tokens : List Token) : List Token := tokens.foldl openingsBehind []

/-- What may stand next where the openings `opened` are unclosed. -/
def expectedBehind (opened : List Token) : Expectation :=
  if opened.isEmpty then .textOrElement else .textElementOrClose

/-- A token that no tree can take where the openings `opened` are unclosed, and its fault. -/
inductive Refused (opened : List Token) (token : Token) : ParseError → Prop
  | tooDeep : token.kind = .elementName → opened.length = maxNesting →
      Refused opened token ⟨.nestingTooDeep, token.position⟩
  | mismatched {innermost outer} : token.kind = .argumentClose → opened = innermost :: outer →
      token.text.utf8ByteSize ≠ innermost.text.utf8ByteSize →
      Refused opened token ⟨.mismatchedClose innermost.text token.text, token.position⟩
  | strayClose : token.kind = .argumentClose → opened = [] →
      Refused opened token ⟨.unexpectedToken .textOrElement .argumentClose, token.position⟩
  | strayOpen : token.kind = .argumentOpen →
      Refused opened token ⟨.unexpectedToken (expectedBehind opened) .argumentOpen, token.position⟩
  | ended {innermost outer} : token.kind = .endOfInput → opened = innermost :: outer →
      Refused opened token ⟨.unbalancedBlock, innermost.position⟩

/-! ## One token -/

namespace TreeBuilder

variable {t next : TreeBuilder} {token first : Token} {ending : Position} {tokens : List Token}
  {e : ParseError}

/-- The tokens that opened the arguments which are open in the tree, innermost first. -/
def openings (t : TreeBuilder) : List Token := t.opened.map (·.opening)

/-- A token changes the openings of a tree that takes it as it changes those of a sequence. -/
theorem openings_step (h : t.step token = .ok next) :
    next.openings = openingsBehind t.openings token := by
  obtain ⟨nodes, opened⟩ := t
  rcases step_cases h with ⟨hk, rfl⟩ | ⟨hk, -, rfl⟩ | ⟨_, _, _, _, hk, -, rfl⟩ |
    ⟨innermost, outer, hk, ho, -, rfl⟩
  · simp [openings, openingsBehind, hk]
  · simp [openings, openingsBehind, hk]
  · simp [openings, openingsBehind, hk]
  · subst ho
    simp [openings, openingsBehind, hk]

theorem openings_foldlM (h : tokens.foldlM step t = .ok next) :
    next.openings = tokens.foldl openingsBehind t.openings := by
  induction tokens generalizing t with
  | nil => cases h; rfl
  | cons token rest ih =>
    rw [List.foldlM_cons, bind_eq_ok_iff] at h
    obtain ⟨mid, hmid, hrest⟩ := h
    rw [List.foldl_cons, ← openings_step hmid]
    exact ih hrest

theorem expectation_eq (t : TreeBuilder) : t.expectation = expectedBehind t.openings := by
  obtain ⟨nodes, opened⟩ := t
  cases opened <;> rfl

/-- A token that a tree does not take is refused, unless it ends the sequence. -/
theorem refused_of_step (h : t.step token = .error e) (hend : ¬ t.Ends token) :
    Refused t.openings token e := by
  obtain ⟨nodes, opened⟩ := t
  unfold step at h
  split at h
  · cases h
  · next hk =>
    split at h
    · next hroom =>
      cases h
      exact .tooDeep hk (by simpa [openings] using hroom)
    · cases h
  · next hk =>
    split at h
    · cases h
    · cases h
      rw [expectation_eq, hk]
      exact .strayOpen hk
  · next hk =>
    split at h
    · next ho =>
      obtain rfl : opened = [] := ho
      cases h
      rw [hk]
      exact .strayClose hk rfl
    · next innermost outer ho =>
      obtain rfl : opened = innermost :: outer := ho
      split at h
      · cases h
      · next hsize =>
        cases h
        exact .mismatched hk rfl hsize
  · next hk =>
    cases opened with
    | nil => exact absurd ⟨hk, rfl⟩ hend
    | cons innermost outer =>
      cases h
      exact .ended hk rfl

/-! ## Runs -/

/-- A tree that takes some tokens goes on with what is behind them. -/
theorem run_append (h : tokens.foldlM step t = .ok next) (rest : List Token) :
    t.run first ending (tokens ++ rest) = next.run first ending rest := by
  induction tokens generalizing t with
  | nil => cases h; rfl
  | cons token earlier ih =>
    rw [List.foldlM_cons, bind_eq_ok_iff] at h
    obtain ⟨mid, hmid, hrest⟩ := h
    have hk : token.kind ≠ .endOfInput := by
      intro hk
      simp [step, hk] at hmid
    rw [List.cons_append, run_of_step hk hmid]
    exact ih hrest

/-- **A run that fails** has taken all its tokens, or comes to one that the tree does not take. -/
theorem run_eq_error (h : t.run first ending tokens = .error e) :
    (∃ next, tokens.foldlM step t = .ok next ∧ e = next.endFault ending) ∨
      ∃ before token after next, tokens = before ++ token :: after ∧
        before.foldlM step t = .ok next ∧ next.step token = .error e ∧ ¬ next.Ends token := by
  induction tokens generalizing t with
  | nil =>
    cases h
    exact .inl ⟨t, rfl, rfl⟩
  | cons token rest ih =>
    by_cases hend : t.Ends token
    · rw [run_of_ends hend] at h
      cases h
    rw [run_cons hend] at h
    cases hstep : t.step token with
    | error e' =>
      rw [hstep] at h
      cases h
      exact .inr ⟨[], token, rest, t, rfl, rfl, hstep, hend⟩
    | ok mid =>
      rw [hstep] at h
      have hcons : ∀ {tokens : List Token} {next : TreeBuilder},
          tokens.foldlM step mid = .ok next → (token :: tokens).foldlM step t = .ok next := by
        intro tokens next hnext
        rw [List.foldlM_cons, hstep]
        exact hnext
      rcases ih h with ⟨next, hnext, rfl⟩ | ⟨before, last, after, next, rfl, hnext, hfault⟩
      · exact .inl ⟨next, hcons hnext, rfl⟩
      · exact .inr ⟨token :: before, last, after, next, rfl, hcons hnext, hfault⟩

/-- **Every tree can be completed**: its arguments are closed, innermost first, and the sequence
    ends. -/
theorem exists_completion (t : TreeBuilder) :
    ∃ later, ∀ first ending, ∃ tree, t.run first ending later = .ok tree := by
  obtain ⟨nodes, opened⟩ := t
  induction opened generalizing nodes with
  | nil => exact ⟨[⟨.endOfInput, "", .start⟩], fun first ending => ⟨_, rfl⟩⟩
  | cons innermost outer ih =>
    let close : Token := ⟨.argumentClose, innermost.opening.text, .start⟩
    obtain ⟨later, hlater⟩ := ih (.element innermost.head innermost.name (innermost.arguments ++
      [⟨innermost.opening, nodes.reverse, close⟩]) :: innermost.before)
    refine ⟨close :: later, fun first ending => ?_⟩
    obtain ⟨tree, htree⟩ := hlater first ending
    refine ⟨tree, ?_⟩
    have hkind : close.kind = .argumentClose := rfl
    have hstep := step_argumentClose (t := ⟨nodes, innermost :: outer⟩) hkind rfl
    rw [if_pos rfl] at hstep
    rw [run_of_step (by simp [hkind]) hstep]
    exact htree

end TreeBuilder

/-! ## Whole sequences -/

section
variable {tokens before : List Token} {token : Token} {next : TreeBuilder} {e : ParseError}

theorem Viable.append {later : List Token} (h : Viable (tokens ++ later)) : Viable tokens := by
  obtain ⟨more, tree, h⟩ := h
  exact ⟨later ++ more, tree, by rwa [← List.append_assoc]⟩

theorem viable_nil : Viable [] :=
  ⟨[⟨.endOfInput, "", .start⟩], _, ParseBlock.ofTokens_cons _ _⟩

/-- What a tree takes from the beginning is viable. -/
theorem viable_of_foldlM (h : tokens.foldlM TreeBuilder.step .empty = .ok next) :
    Viable tokens := by
  cases tokens with
  | nil => exact viable_nil
  | cons first rest =>
    obtain ⟨later, hlater⟩ := next.exists_completion
    obtain ⟨tree, htree⟩ := hlater first (endPosition (first :: rest ++ later))
    refine ⟨later, tree, ?_⟩
    rw [List.cons_append, ParseBlock.ofTokens_cons, ← htree]
    exact TreeBuilder.run_append h later

/-- Behind a token that is not taken all sequences have the same fault. -/
theorem ofTokens_of_step_eq_error (h : before.foldlM TreeBuilder.step .empty = .ok next)
    (hstep : next.step token = .error e) (hend : ¬ next.Ends token) (later : List Token) :
    ParseBlock.ofTokens (before ++ token :: later) = .error e := by
  obtain ⟨first, rest, hcons⟩ :=
    List.exists_cons_of_ne_nil (l := before ++ token :: later) (by simp)
  rw [hcons, ParseBlock.ofTokens_cons, ← hcons, TreeBuilder.run_append h]
  exact TreeBuilder.run_of_step_eq_error hstep hend later

/-- **The first token that cannot be continued** is the one behind the tokens that are taken. -/
theorem isLeast_not_viable {after : List Token}
    (h : before.foldlM TreeBuilder.step .empty = .ok next) (hstep : next.step token = .error e)
    (hend : ¬ next.Ends token) :
    IsLeast {k | ¬ Viable ((before ++ token :: after).take k)} (before.length + 1) := by
  constructor
  · rintro ⟨later, tree, htree⟩
    rw [List.take_append, List.take_of_length_le (Nat.le_succ _), Nat.add_sub_cancel_left,
      List.take_one, List.head?_cons, Option.toList_some, List.append_assoc,
      List.singleton_append, ofTokens_of_step_eq_error h hstep hend] at htree
    cases htree
  · intro k hk
    refine Nat.lt_of_not_le fun hle => hk ?_
    rw [List.take_append_of_le_length hle]
    have hbefore : Viable (before.take k ++ before.drop k) := by
      rw [List.take_append_drop]
      exact viable_of_foldlM h
    exact hbefore.append

/-- The fault at the end of a sequence that could go on. -/
theorem endFault_eq (h : tokens.foldlM TreeBuilder.step .empty = .ok next) (ending : Position) :
    next.endFault ending =
      match unclosedOpenings tokens with
      | [] => ⟨.missingEndOfInput, ending⟩
      | innermost :: _ => ⟨.unbalancedBlock, innermost.position⟩ := by
  have hopenings : next.openings = unclosedOpenings tokens := TreeBuilder.openings_foldlM h
  rw [← hopenings]
  obtain ⟨nodes, opened⟩ := next
  cases opened <;> rfl

/-- Where a refused token is not expected, that is as it is inside or outside of arguments. -/
theorem Refused.expects {opened : List Token} (h : Refused opened token e)
    {expected : Expectation} {found : Token.Kind} (hk : e.kind = .unexpectedToken expected found) :
    expected = .textOrElement ∨ expected = .textElementOrClose := by
  cases h with
  | strayOpen =>
    obtain ⟨rfl, -⟩ := ParseError.Kind.unexpectedToken.inj hk
    unfold expectedBehind
    split
    · exact .inl rfl
    · exact .inr rfl
  | strayClose =>
    obtain ⟨rfl, -⟩ := ParseError.Kind.unexpectedToken.inj hk
    exact .inl rfl
  | _ => cases hk

/-- **No token is refused for want of the name of an element or of an opening run**, though an
    element is read where its name is looked for, and an argument where its opening is. -/
theorem ParseBlock.expects_of_ofTokens (h : ParseBlock.ofTokens tokens = .error e)
    {expected : Expectation} {found : Token.Kind} (hk : e.kind = .unexpectedToken expected found) :
    expected = .textOrElement ∨ expected = .textElementOrClose := by
  cases tokens with
  | nil => cases h; cases hk
  | cons first rest =>
    rw [ParseBlock.ofTokens_cons] at h
    rcases TreeBuilder.run_eq_error h with ⟨next, -, rfl⟩ | ⟨_, _, _, _, -, -, hstep, hend⟩
    · unfold TreeBuilder.endFault at hk
      split at hk <;> cases hk
    · exact (TreeBuilder.refused_of_step hstep hend).expects hk

/-- **Faults come at the first token that cannot be continued.**  A viable sequence that is refused
    is empty, or ends inside of an argument, or lacks its end token.  Any other sequence that is
    refused has a first token behind which it is not viable any more, and its fault is the one of
    this token, whatever comes behind it.  Where a token is not expected, that is never for want of
    the name of an element or of an opening run. -/
theorem ParseBlock.ofTokens_eq_error (h : ParseBlock.ofTokens tokens = .error e) :
    (Viable tokens →
      (tokens = [] → e = ⟨.emptyInput, ⟨1, 1⟩⟩) ∧
      (∀ innermost outer, unclosedOpenings tokens = innermost :: outer →
        e = ⟨.unbalancedBlock, innermost.position⟩) ∧
      ∀ last ∈ tokens.getLast?, unclosedOpenings tokens = [] →
        e = ⟨.missingEndOfInput, last.position⟩) ∧
    (¬ Viable tokens → ∃ before token after, tokens = before ++ token :: after ∧
      IsLeast {k | ¬ Viable (tokens.take k)} (before.length + 1) ∧
      Refused (unclosedOpenings before) token e ∧
      ∀ later, ParseBlock.ofTokens (before ++ token :: later) = .error e) ∧
    ∀ expected found, e.kind = .unexpectedToken expected found →
      expected.describe ≠ "element name" ∧ expected.describe ≠ "argument open" := by
  refine ⟨fun hviable => ?_, fun hviable => ?_, fun expected found hk => ?_⟩
  · cases tokens with
    | nil =>
      cases h
      exact ⟨fun _ => rfl, by rintro innermost outer ⟨⟩, by rintro last ⟨⟩⟩
    | cons first rest =>
      rw [ParseBlock.ofTokens_cons] at h
      rcases TreeBuilder.run_eq_error h with ⟨next, hnext, rfl⟩ |
        ⟨before, token, after, next, hsplit, hnext, hstep, hend⟩
      · refine ⟨by rintro ⟨⟩, fun innermost outer hopen => ?_, fun last hlast hopen => ?_⟩
        · rw [endFault_eq hnext, hopen]
        · rw [endFault_eq hnext, hopen, endPosition, Option.mem_def.1 hlast]
          rfl
      · obtain ⟨later, tree, htree⟩ := hviable
        rw [hsplit, List.append_assoc, List.cons_append,
          ofTokens_of_step_eq_error hnext hstep hend] at htree
        cases htree
  · cases tokens with
    | nil => exact absurd viable_nil hviable
    | cons first rest =>
      rw [ParseBlock.ofTokens_cons] at h
      rcases TreeBuilder.run_eq_error h with ⟨next, hnext, -⟩ |
        ⟨before, token, after, next, hsplit, hnext, hstep, hend⟩
      · exact absurd (viable_of_foldlM hnext) hviable
      · refine ⟨before, token, after, hsplit, ?_, ?_, ?_⟩
        · rw [hsplit]
          exact isLeast_not_viable hnext hstep hend
        · have hopenings : next.openings = unclosedOpenings before :=
            TreeBuilder.openings_foldlM hnext
          rw [← hopenings]
          exact TreeBuilder.refused_of_step hstep hend
        · exact ofTokens_of_step_eq_error hnext hstep hend
  · rcases ParseBlock.expects_of_ofTokens h hk with rfl | rfl <;> decide

end

/-- A closing run that is too short stops the sequence, though the one behind it would fit. -/
theorem ParseBlock.ofTokens_eq_error_mismatched :
    let name : Token := ⟨.elementName, "#a", ⟨1, 1⟩⟩
    let opening : Token := ⟨.argumentOpen, "\x7b\x7b", ⟨1, 3⟩⟩
    let word : Token := ⟨.text, "w", ⟨1, 5⟩⟩
    let short : Token := ⟨.argumentClose, "\x7d", ⟨1, 6⟩⟩
    let closing : Token := ⟨.argumentClose, "\x7d\x7d", ⟨1, 7⟩⟩
    let tokens := [name, opening, word, short, closing, ⟨.endOfInput, "", ⟨1, 9⟩⟩]
    let e : ParseError := ⟨.mismatchedClose "\x7b\x7b" "\x7d", ⟨1, 6⟩⟩
    ParseBlock.ofTokens tokens = .error e ∧ ¬ Viable tokens ∧
      ∃ before token after, tokens = before ++ token :: after ∧
        IsLeast {k | ¬ Viable (tokens.take k)} (before.length + 1) ∧
        Refused (unclosedOpenings before) token e := by
  intro name opening word short closing tokens e
  have hfault : ParseBlock.ofTokens tokens = .error e := ParseBlock.ofTokens_cons _ _
  have hviable : ¬ Viable tokens := by
    rintro ⟨later, tree, htree⟩
    have hlater : ParseBlock.ofTokens (tokens ++ later) = .error e := ParseBlock.ofTokens_cons _ _
    rw [hlater] at htree
    cases htree
  obtain ⟨before, token, after, hsplit, hleast, hrefused, -⟩ :=
    (ParseBlock.ofTokens_eq_error hfault).2.1 hviable
  exact ⟨hfault, hviable, before, token, after, hsplit, hleast, hrefused⟩

end BraceMarkup
