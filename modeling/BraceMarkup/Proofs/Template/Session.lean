/-
  Sessions survive their errors.

  A session keeps its environment and the number of active elements from one
  evaluation to the next.  However an evaluation ends, it leaves as many
  elements active as there were before, so that nothing a session was asked for
  takes away from the limit of what it is asked for next.

  * `Query`: what a session can be asked for;
  * `Engine.leave`, `Engine.after`: the state, and the session, that a query
    leaves behind;
  * `Engine.outcome_active`: an evaluation leaves as many elements active as
    there were before;
  * `Engine.AnswersAsNew`: in a state, all queries are answered as in a new
    session with the same environment;
  * `Engine.outcome_blockText_own_list`: a list that begins with a deferred
    reference to it has no text;
  * `Engine.survives_errors`: **every session answers as a new one**, whatever
    it was asked for before, and it does answer if its lists are plain;
  * `Engine.evaluate_endless_list`: otherwise an evaluation may go on without
    end.
-/
import BraceMarkup.Proofs.Template.Excused
import BraceMarkup.Proofs.Template.Composition
import Mathlib.Control.Monad.Basic

namespace BraceMarkup

/-- What a session can be asked for. -/
inductive Query where
  /-- The value of a block. -/
  | value (b : Block)
  /-- The text of a block. -/
  | text (b : Block)

/-- A computation that compares with itself leaves as many elements active as there were. -/
theorem Lockstep.Alike.active {α : Type} {P : α → Prop} {x : Evaluation α} {s : EvaluationState}
    (h : (Lockstep.upTo fun _ => False).Alike s.active s.active P x x) :
    (x.outcome s).2.active = s.active := by
  rcases h.upTo_cases s.environment with ⟨_, _, _, hf⟩ | ⟨_, _, hx, -⟩
  · exact hf.elim
  · exact congrArg (·.2.active) hx

namespace Engine

/-! ## One query -/

/-- The state that a query leaves behind, whether it is answered or fails. -/
def leave (c : Config) (s : EvaluationState) : Query → EvaluationState
  | .value b => (((topLevel c).block b).outcome s).2
  | .text b => (((topLevel c).blockText b).outcome s).2

/-- The session that a query leaves behind. -/
def after (e : Engine) : Query → Engine
  | .value b => (e.evaluateBlock b).2
  | .text b => (e.evaluate b).2

/-- An evaluation compares with itself, however many elements are active. -/
theorem topLevel_same (c : Config) (a : Nat) :
    (Lockstep.upTo fun _ => False).Levels a a (topLevel c) (topLevel c) :=
  (Lockstep.upTo_laws rfl (Lockstep.upTo_loaders c.loader) (fun _ _ h => h) (.inl rfl)).level rfl
    (Nat.le_add_left _ _) (Nat.le_add_left _ _) (.inl rfl)

/-- However an evaluation ends, it leaves as many elements active as there were before. -/
theorem outcome_active (c : Config) (s : EvaluationState) (b : Block) :
    (((topLevel c).block b).outcome s).2.active = s.active ∧
      (((topLevel c).blockText b).outcome s).2.active = s.active := by
  have hlevels := topLevel_same c s.active
  have hb : (Lockstep.upTo fun _ => False).block s.active b := Lockstep.upTo_block s.active b
  exact ⟨Lockstep.Alike.active (hlevels.block hb), Lockstep.Alike.active (hlevels.blockText hb)⟩

theorem active_leave (c : Config) (s : EvaluationState) (q : Query) :
    (leave c s q).active = s.active := by
  cases q with
  | value b => exact (outcome_active c s b).1
  | text b => exact (outcome_active c s b).2

/-- A list that begins with a deferred reference to it has no text: however deeply deferred blocks
    may be printed inside each other, printing comes back to the list.  The reference is no longer
    active by then, so that this never meets the limit of active elements. -/
theorem outcome_blockText_own_list {c : Config} {E : Environment} {b : Block} {rest : List Value}
    (h : E.values.get? (bindingName b) = some (.list (.deferred [.element "" [b]] :: rest)))
    {a : Nat} (ha : a < maxActive) (n depth : Nat) :
    ((level c (directive c) (n + 1) depth).blockText [.element "" [b]]).outcome ⟨E, a⟩ =
      (.error .endless, ⟨E, a⟩) := by
  have hvalue : ∀ depth,
      ((level c (directive c) (n + 1) depth).block [.element "" [b]]).outcome ⟨E, a⟩ =
        (.ok (some (.list (.deferred [.element "" [b]] :: rest))), ⟨E, a⟩) := by
    intro depth
    rw [outcome_element ha, directive_reference]
    simp only [Level.reference, Evaluation.outcome_bind, Evaluation.outcome_boundVariable, h,
      Level.force, Evaluation.outcome_pure, Nat.add_sub_cancel]
  -- the first item is printed one level further down, so the induction is on the depth
  induction depth with
  | zero =>
    rw [Level.blockText, Evaluation.outcome_bind, hvalue]
    rfl
  | succ depth ih =>
    have hprint : (level c (directive c) (n + 1) (depth + 1)).print =
        printValue (level c (directive c) (n + 1) depth).blockText := rfl
    rw [Level.blockText, Evaluation.outcome_bind, hvalue]
    simp only [Level.printResult, hprint, printValue, printItems, Evaluation.outcome_bind, ih]

/-! ## Sessions -/

/-- What a session answers, and the state behind it: the environment of the session, and no active
    element. -/
def answered {α : Type} (r : Except Failure α × Engine) : Except Failure α × EvaluationState :=
  (r.1, ⟨r.2.environment, 0⟩)

/-- In the state `s`, all queries are answered as in a new session with the same settings and the
    same environment, and leave the environment that they leave there. -/
def AnswersAsNew (c : Config) (s : EvaluationState) : Prop :=
  ∀ e : Engine, e.config = c → e.environment = s.environment → ∀ b : Block,
    ((topLevel c).block b).outcome s = answered (e.evaluateBlock b) ∧
    ((topLevel c).blockText b).outcome s = answered (e.evaluate b)

theorem outcome_eq_answered {α : Type} {x : Evaluation α} {s : EvaluationState} {e : Engine}
    (he : e.environment = s.environment) (hs : s.active = 0)
    (hx : (x.outcome s).2.active = s.active) : x.outcome s = answered (e.run x) := by
  obtain ⟨E, a⟩ := s
  obtain rfl : a = 0 := hs
  subst he
  exact Prod.ext rfl (congrArg (EvaluationState.mk _) hx)

/-- Where no element is active, queries are answered as in a new session. -/
theorem answersAsNew {c : Config} {s : EvaluationState} (hs : s.active = 0) :
    AnswersAsNew c s := by
  rintro e rfl he b
  obtain ⟨hblock, htext⟩ := outcome_active e.config s b
  exact ⟨outcome_eq_answered he hs hblock, outcome_eq_answered he hs htext⟩

/-- The text of a block is that of its value, in the session that is left behind. -/
theorem evaluate_congr {e : Engine} {b other : Block}
    (h : e.evaluateBlock b = e.evaluateBlock other) : e.evaluate b = e.evaluate other := by
  have hblock : ∀ b, ((topLevel e.config).block b).outcome ⟨e.environment, 0⟩ =
      answered (e.evaluateBlock b) := fun b => (answersAsNew rfl e rfl rfl b).1
  simp only [evaluate, run, Level.blockText, Evaluation.outcome_bind, hblock, h]

/-- One query to a session in which no element is active. -/
theorem leave_eq (e : Engine) (q : Query) :
    leave e.config ⟨e.environment, 0⟩ q = ⟨(e.after q).environment, 0⟩ := by
  have hactive := active_leave e.config ⟨e.environment, 0⟩ q
  cases q <;> exact congrArg (EvaluationState.mk _) hactive

/-- Queries one after the other. -/
theorem foldl_leave (queries : List Query) (e : Engine) :
    (queries.foldl after e).config = e.config ∧
      queries.foldl (leave e.config) ⟨e.environment, 0⟩ =
        ⟨(queries.foldl after e).environment, 0⟩ := by
  induction queries generalizing e with
  | nil => exact ⟨rfl, rfl⟩
  | cons q rest ih =>
    have hconfig : (e.after q).config = e.config := by cases q <;> rfl
    obtain ⟨hc, hs⟩ := ih (e.after q)
    rw [hconfig] at hc hs
    rw [List.foldl_cons, List.foldl_cons, leave_eq]
    exact ⟨hc, hs⟩

/-- The lists of a session stay plain. -/
theorem listsPlain_foldl_after {e : Engine} (hc : e.config.LoadsDocuments)
    (he : e.environment.ListsPlain) (queries : List Query) :
    (queries.foldl after e).environment.ListsPlain := by
  induction queries generalizing e with
  | nil => exact he
  | cons q rest ih =>
    have hb := fun b => Lockstep.plainLists_block 0 b
    refine @ih (e.after q) ?_ ?_
    · cases q <;> exact hc
    · cases q with
      | value b => exact (((Lockstep.plainLists_topLevel hc).block (hb b)).ends he).2.1
      | text b => exact (((Lockstep.plainLists_topLevel hc).blockText (hb b)).ends he).2.1

/-- **Sessions survive their errors.**  However an evaluation ends, and in whatever state it began,
    it leaves as many elements active as there were.  So the state that queries leave behind, one
    after the other and answered or not, is the environment of the session with no element active,
    and there every query is answered as in a new session with the same settings and the same
    environment.  Where no list holds a deferred block, the answer is a value or an error. -/
theorem survives_errors (e : Engine) :
    (∀ (s : EvaluationState) (b : Block),
      (((topLevel e.config).block b).outcome s).2.active = s.active ∧
        (((topLevel e.config).blockText b).outcome s).2.active = s.active) ∧
    ∀ queries : List Query,
      let s := queries.foldl (leave e.config) ⟨e.environment, 0⟩
      let last := queries.foldl after e
      (last.config = e.config ∧ s = ⟨last.environment, 0⟩) ∧
      AnswersAsNew e.config s ∧
      (e.config.LoadsDocuments → e.environment.ListsPlain → ∀ b : Block,
        (∃ r : Except EvalError (Option Value), (last.evaluateBlock b).1 = r.mapError .error) ∧
          ∃ r : Except EvalError String, (last.evaluate b).1 = r.mapError .error) := by
  refine ⟨outcome_active e.config, ?_⟩
  intro queries s last
  obtain ⟨hconfig, hs⟩ : last.config = e.config ∧ s = ⟨last.environment, 0⟩ :=
    foldl_leave queries e
  refine ⟨⟨hconfig, hs⟩, answersAsNew (congrArg (·.active) hs), ?_⟩
  intro hc he b
  have hplain : last.environment.ListsPlain := listsPlain_foldl_after hc he queries
  rw [← hconfig] at hc
  have hlevels := Lockstep.plainLists_topLevel hc
  have hb := Lockstep.plainLists_block 0 b
  exact ⟨((hlevels.block hb).ends hplain).1, ((hlevels.blockText hb).ends hplain).1⟩

/-- A template that refers to itself comes to the limit of active elements, and behind it there is
    room again. -/
theorem survives_errors_self_reference :
    let e : Engine := .ofConfig .default
    let looping : Block := [.element "template" [[.text "a"], [.element "" [[.text "a"]]]],
      .element "" [[.text "a"]]]
    let b : Block := [.element "define" [[.text "b"], [.text "ok"]], .element "" [[.text "b"]]]
    (e.evaluate looping).1 = .error (.error (.recursionLimit "a")) ∧
      (((topLevel e.config).blockText b).outcome
        (leave e.config ⟨e.environment, 0⟩ (.text looping))).1 = .ok "ok" ∧
      (e.config.LoadsDocuments ∧ e.environment.ListsPlain) ∧
      ∃ r : Except EvalError String,
        ((e.after (.text looping)).evaluate b).1 = r.mapError .error := by
  intro e looping b
  have hlimit : (e.evaluate looping).1 = .error (.error (.recursionLimit "a")) := by
    decide +kernel
  have hc : e.config.LoadsDocuments := .inl rfl
  have he : e.environment.ListsPlain := by rintro name value ⟨⟩
  have hnext : ∀ (e : Engine) (q : Query) (b : Block),
      (((topLevel e.config).blockText b).outcome (leave e.config ⟨e.environment, 0⟩ q)).1 =
        ((e.after q).evaluate b).1 ∧
      (e.config.LoadsDocuments → e.environment.ListsPlain →
        ∃ r : Except EvalError String, ((e.after q).evaluate b).1 = r.mapError .error) := by
    intro e q b
    obtain ⟨⟨hconfig, hs⟩, hnew, hends⟩ := (survives_errors e).2 [q]
    have hanswer := (hnew (e.after q) hconfig (congrArg (·.environment) hs).symm b).2
    rw [List.foldl_cons, List.foldl_nil] at hanswer
    exact ⟨by rw [hanswer, answered], fun hc he => (hends hc he b).2⟩
  refine ⟨hlimit, ?_, ⟨hc, he⟩, (hnext e _ b).2 hc he⟩
  rw [(hnext e _ b).1]
  decide +kernel

/-- A list whose only item is a deferred reference to it: the evaluation of the reference yields
    neither a text nor an error, whatever bounds it. -/
theorem evaluate_endless_list :
    let reference : Block := [.element "" [[.text "items"]]]
    let e : Engine := ⟨.default, ⟨[("items", .list [.deferred reference])], []⟩⟩
    (∀ n depth, maxActive ≤ n →
      (e.run ((level e.config (directive e.config) n depth).blockText reference)).1 =
        .error .endless) ∧
      ¬ ∃ r : Except EvalError String, (e.evaluate reference).1 = r.mapError .error := by
  intro reference e
  have hrun : ∀ n depth, maxActive ≤ n →
      (e.run ((level e.config (directive e.config) n depth).blockText reference)).1 =
        .error .endless := by
    intro n depth hn
    have hpos : 0 < n := Nat.lt_of_lt_of_le (by decide) hn
    obtain ⟨m, rfl⟩ := Nat.exists_eq_add_one.2 hpos
    have hlist : e.environment.values.get? (bindingName [.text "items"]) =
        some (.list [.deferred reference]) := rfl
    exact congrArg Prod.fst (outcome_blockText_own_list hlist (by decide) m depth)
  refine ⟨hrun, ?_⟩
  rintro ⟨r, hr⟩
  have hendless : (e.evaluate reference).1 = .error .endless :=
    hrun maxActive maxPrintDepth (Nat.le_refl _)
  cases r <;> cases hr.symm.trans hendless

end Engine

end BraceMarkup
