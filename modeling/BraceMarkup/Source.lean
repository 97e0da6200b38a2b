/-
  From the text of a document to its tree.

  * `SourceError`: a fault in the braces or in the nesting of a text, in words
    and with the fault behind it;
  * `Block.ofSource`: the tree of a text, or the first fault in it;
  * `bind_eq_ok_iff`, `mapError_eq_ok_iff`: what succeeds in two stages, or with
    its faults put in other words;
  * `Block.ofSource_eq_ok_iff`, `Block.ofSource_eq_parse_error_iff`: the stages
    that a tree, or a fault in the sequence of tokens, comes from.
-/
import BraceMarkup.Token.Scanner
import BraceMarkup.ParseTree

namespace BraceMarkup

/-- A fault in the text of a document. -/
inductive SourceError where
  | lex (e : LexError)
  | parse (e : ParseError)
  deriving Repr, DecidableEq

/-- The fault in words. -/
def SourceError.message : SourceError → String
  | lex e => e.message
  | parse e => e.message

/-- The messages of the causes behind the fault: it tells nothing but what is wrong with the text,
    which is a cause of its own. -/
def SourceError.causes : SourceError → List String
  | lex e => [e.message]
  | parse e => [e.message]

/-- The parse tree of a text. -/
def ParseBlock.ofSource (source : String) : Except SourceError ParseBlock := do
  let tokens ← (tokenize source).mapError .lex
  (ParseBlock.ofTokens tokens).mapError .parse

/-- The tree of a text. -/
def Block.ofSource (source : String) : Except SourceError Block := do
  return (← ParseBlock.ofSource source).toBlock

/-! ## One stage after another -/

section
variable {ε ε' α β : Type}

theorem bind_eq_ok_iff {x : Except ε α} {f : α → Except ε β} {b : β} :
    x >>= f = .ok b ↔ ∃ a, x = .ok a ∧ f a = .ok b := by
  cases x <;> simp [bind, Except.bind]

theorem bind_eq_error_iff {x : Except ε α} {f : α → Except ε β} {e : ε} :
    x >>= f = .error e ↔ x = .error e ∨ ∃ a, x = .ok a ∧ f a = .error e := by
  cases x <;> simp [bind, Except.bind]

theorem mapError_eq_ok_iff {x : Except ε α} {f : ε → ε'} {a : α} :
    x.mapError f = .ok a ↔ x = .ok a := by
  cases x with
  | error e => constructor <;> rintro ⟨⟩
  | ok b =>
    constructor
    · rintro ⟨⟩
      rfl
    · rintro ⟨⟩
      rfl

theorem mapError_eq_error_iff {x : Except ε α} {f : ε → ε'} {e : ε'} :
    x.mapError f = .error e ↔ ∃ cause, x = .error cause ∧ f cause = e := by
  cases x with
  | error cause =>
    constructor
    · rintro ⟨⟩
      exact ⟨cause, rfl, rfl⟩
    · rintro ⟨_, ⟨⟩, rfl⟩
      rfl
  | ok a =>
    constructor
    · rintro ⟨⟩
    · rintro ⟨_, ⟨⟩, _⟩

end

theorem Block.ofSource_eq_ok_iff {source : String} {b : Block} :
    Block.ofSource source = .ok b ↔ ∃ tokens tree, tokenize source = .ok tokens ∧
      ParseBlock.ofTokens tokens = .ok tree ∧ tree.toBlock = b := by
  simp only [Block.ofSource, ParseBlock.ofSource, bind_eq_ok_iff, mapError_eq_ok_iff]
  constructor
  · rintro ⟨tree, ⟨tokens, htokens, htree⟩, hb⟩
    exact ⟨tokens, tree, htokens, htree, Except.ok.inj hb⟩
  · rintro ⟨tokens, tree, htokens, htree, rfl⟩
    exact ⟨tree, ⟨tokens, htokens, htree⟩, rfl⟩

theorem Block.ofSource_eq_parse_error_iff {source : String} {e : ParseError} :
    Block.ofSource source = .error (.parse e) ↔
      ∃ tokens, tokenize source = .ok tokens ∧ ParseBlock.ofTokens tokens = .error e := by
  simp only [Block.ofSource, ParseBlock.ofSource, bind_eq_error_iff, mapError_eq_error_iff,
    mapError_eq_ok_iff]
  constructor
  · rintro ((⟨_, -, ⟨⟩⟩ | ⟨tokens, htokens, cause, hcause, ⟨⟩⟩) | ⟨tree, -, ⟨⟩⟩)
    exact ⟨tokens, htokens, hcause⟩
  · rintro ⟨tokens, htokens, he⟩
    exact .inl (.inr ⟨tokens, htokens, e, he, rfl⟩)

end BraceMarkup
