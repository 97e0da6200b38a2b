/-
  Evaluation ends.

  As long as no list holds a deferred block, printing a value evaluates
  nothing, and no directive ever puts a deferred block into a list.  What is
  left to bound an evaluation are the elements that are active.

  * `Value.Plain`, `Value.ListsPlain`, `Environment.ListsPlain`: no deferred
    block in a value, in the lists of a value, in the lists of an environment;
  * `Config.LoadsDocuments`: modules are documents, from a table or from files;
  * `Lockstep.plainLists`: an evaluation and itself at another level, with
    environments whose lists are plain;
  * `seededEngine_listsPlain`: the lists of a session are plain that the
    command starts;
  * `Engine.evaluation_ends`: **an evaluation yields a value or fails with an
    error**, the same at all levels that suffice for `maxActive` elements.
-/
import BraceMarkup.Proofs.Template.Lockstep
import BraceMarkup.CommandLine.Run

namespace BraceMarkup

/-! ## Plain lists -/

mutual

/-- No deferred block stands in a value, at any depth. -/
def Value.Plain : Value → Prop
  | .deferred _ => False
  | .list items => Value.PlainItems items
  | _ => True

/-- No deferred block stands in some values, at any depth. -/
def Value.PlainItems : List Value → Prop
  | [] => True
  | item :: rest => item.Plain ∧ Value.PlainItems rest

end

/-- No deferred block stands in a list in a value, at any depth; the value may be one. -/
def Value.ListsPlain : Value → Prop
  | .deferred _ => True
  | value => value.Plain

/-- No variable stands for a value with a deferred block in a list. -/
def Environment.ListsPlain (env : Environment) : Prop :=
  ∀ name value, env.values.get? name = some value → value.ListsPlain

/-- No deferred block stands in what names stand for. -/
def PlainEntries (entries : List (String × Value)) : Prop := ∀ entry ∈ entries, entry.2.Plain

theorem PlainEntries.cons {entry : String × Value} {rest : List (String × Value)}
    (h : entry.2.Plain) (hr : PlainEntries rest) : PlainEntries (entry :: rest) := by
  intro other ho
  rcases List.mem_cons.1 ho with rfl | ho
  · exact h
  · exact hr other ho

theorem Value.PlainItems.mem {items : List Value} (h : Value.PlainItems items) {item : Value}
    (hi : item ∈ items) : item.Plain := by
  induction items with
  | nil => cases hi
  | cons first rest ih =>
    rcases List.mem_cons.1 hi with rfl | hi
    · exact h.1
    · exact ih h.2 hi

theorem Value.Plain.listsPlain {v : Value} (h : v.Plain) : v.ListsPlain := by
  cases v with
  | deferred => trivial
  | text | number | boolean | list => exact h

theorem Value.ListsPlain.plain {v : Value} (h : v.ListsPlain) (hk : v.kind ≠ .deferred) :
    v.Plain := by
  cases v with
  | deferred => exact absurd rfl hk
  | text | number | boolean | list => exact h

theorem Environment.ListsPlain.setVariable {env : Environment} (h : env.ListsPlain)
    {name : String} {value : Value} (hv : value.ListsPlain) :
    (env.setVariable name value).ListsPlain := by
  intro other w hw
  simp only [Environment.setVariable, Bindings.get?_set] at hw
  split at hw
  · cases hw
    exact hv
  · exact h other w hw

theorem Environment.ListsPlain.setVariables {env : Environment} (h : env.ListsPlain)
    {more : List (String × Value)} (hmore : PlainEntries more) :
    (env.setVariables more).ListsPlain := by
  induction more generalizing env with
  | nil => exact h
  | cons entry rest ih =>
    have hset : (env.setVariable entry.1 entry.2).ListsPlain :=
      h.setVariable (hmore entry (by simp)).listsPlain
    exact ih hset fun e he => hmore e (by simp [he])

/-! ## Loaders of documents -/

/-- Nothing can be imported, or modules are documents from a table or from files. -/
def Config.LoadsDocuments (c : Config) : Prop :=
  c.loader = none ∨ (∃ modules, c.loader = some (.memory modules)) ∨
    ∃ read root, c.loader = some (.files read root)

/-- Such a loader gives documents. -/
theorem Config.LoadsDocuments.load {c : Config} (h : c.LoadsDocuments) {loader : Loader}
    (hl : c.loader = some loader) (name : String) (values : List (String × Value)) :
    loader.load name ≠ .ok (.bindings values) := by
  rcases h with h | ⟨modules, h⟩ | ⟨read, root, h⟩
  · simp [h] at hl
  · cases hl.symm.trans h
    simp only [Loader.memory]
    split <;> simp
  · cases hl.symm.trans h
    simp only [Loader.files]
    split <;> simp

/-- What a loader of documents gives compares with itself, where nothing is asked of blocks and of
    failures but that they end. -/
theorem Config.LoadsDocuments.loaders {c : Config} (h : c.LoadsDocuments) {L : Lockstep} {a : Nat}
    {name : String} (hblock : ∀ b, L.block a b) (hfail : ∀ e, L.failure (.error e)) :
    L.Loaders a name c.loader c.loader := by
  cases hc : c.loader with
  | none => exact .none
  | some loader =>
    refine .some ?_
    cases hl : loader.load name with
    | error e => exact .error (hfail _)
    | ok module =>
      cases module with
      | document source => exact .document (fun b _ => hblock b) fun e _ => hfail _
      | bindings values => exact absurd hl (h.load hc name values)

/-! ## The comparison -/

/-- An evaluation and itself, in an environment whose lists are plain. -/
def Lockstep.plainLists : Lockstep where
  environments E F := E = F ∧ E.ListsPlain
  name _ := True
  element _ _ _ := True
  value v := v.ListsPlain
  item v := v.Plain
  failure f := f ≠ .endless
  excused _ := False

theorem Lockstep.plainLists_block (a : Nat) (b : Block) : Lockstep.plainLists.block a b :=
  fun _ _ _ => trivial

/-- No directive puts a deferred block into a list. -/
theorem Lockstep.plainLists_laws {c : Config} (hc : c.LoadsDocuments) :
    Lockstep.plainLists.Laws 0 c c where
  trimSpaces := rfl
  lookupVariable {E F name} hE _ := by
    obtain ⟨rfl, hE⟩ := hE
    refine ⟨rfl, ?_⟩
    cases hv : E.values.get? name with
    | none => exact Failure.noConfusion
    | some v => exact hE name v hv
  lookupTemplate {E F name} hE _ := by
    obtain ⟨rfl, hE⟩ := hE
    refine ⟨rfl, ?_⟩
    cases hb : E.templates.get? name with
    | none => exact Failure.noConfusion
    | some b => exact fun a => plainLists_block a b
  arguments _ _ := ⟨trivial, plainLists_block _ _⟩
  inlined _ _ := plainLists_block _ _
  define _ _ hv _ hE := by
    obtain ⟨rfl, hE⟩ := hE
    exact ⟨rfl, hE.setVariable hv⟩
  foreach _ _ hv hE := by
    obtain ⟨rfl, hE⟩ := hE
    exact ⟨rfl, hE.setVariable hv.listsPlain⟩
  template _ _ hE := by
    obtain ⟨rfl, hE⟩ := hE
    exact ⟨rfl, hE⟩
  importModule _ _ := hc.loaders (plainLists_block _) fun _ => Failure.noConfusion
  text _ := trivial
  number _ := trivial
  boolean _ := trivial
  items h hi := Value.PlainItems.mem h hi
  value_of_item h := h.listsPlain
  deferred _ := plainLists_block _ _
  endless h := h.elim
  plain _ := Failure.noConfusion
  imported _ := Failure.noConfusion
  excused_imported h := h.elim
  limit _ _ := .inr ⟨rfl, Failure.noConfusion⟩

/-- All levels that suffice for the elements that may yet become active are alike. -/
theorem Lockstep.plainLists_levels {c : Config} (hc : c.LoadsDocuments) {n m : Nat}
    (hn : maxActive ≤ n) (hm : maxActive ≤ m) (k k' : Nat) :
    Lockstep.plainLists.Levels 0 0 (level c (directive c) n k) (level c (directive c) m k') :=
  (plainLists_laws hc).level rfl (by omega) (by omega) (.inr fun _ h => h)

theorem Lockstep.plainLists_topLevel {c : Config} (hc : c.LoadsDocuments) :
    Lockstep.plainLists.Levels 0 0 (Engine.topLevel c) (Engine.topLevel c) :=
  plainLists_levels hc (Nat.le_refl maxActive) (Nat.le_refl maxActive) maxPrintDepth maxPrintDepth

/-- A computation that compares with another one ends, in a session whose lists are plain, and
    leaves the lists plain. -/
theorem Lockstep.Alike.ends {α : Type} {P : α → Prop} {x y : Evaluation α}
    (h : Lockstep.plainLists.Alike 0 0 P x y) {e : Engine} (he : e.environment.ListsPlain) :
    (∃ r : Except EvalError α, (e.run x).1 = r.mapError .error) ∧
      (e.run x).2.environment.ListsPlain ∧ e.run y = e.run x := by
  have hx := h e.environment e.environment ⟨rfl, he⟩
  unfold Engine.run
  generalize x.outcome ⟨e.environment, 0⟩ = o, y.outcome ⟨e.environment, 0⟩ = o' at hx ⊢
  cases hx with
  | ok _ hE =>
    obtain ⟨rfl, hE⟩ := hE
    exact ⟨⟨.ok _, rfl⟩, hE, rfl⟩
  | @error f _ _ hf hE =>
    obtain ⟨rfl, hE⟩ := hE
    cases f with
    | error e => exact ⟨⟨.error e, rfl⟩, hE, rfl⟩
    | endless => exact absurd rfl hf
  | excused hf => exact hf.elim

/-! ## Sessions of the command -/

mutual

theorem Value.plain_ofJson : ∀ {json : Json} {v : Value}, Value.ofJson json = .ok v → v.Plain
  | .null, _, h => by cases h
  | .boolean _, _, h => by cases h; trivial
  | .number _, _, h => by cases h; trivial
  | .string _, _, h => by cases h; trivial
  | .array items, _, h => by
    obtain ⟨values, hvalues, h⟩ := bind_eq_ok_iff.1 h
    cases h
    exact Value.plainItems_ofJsonItems hvalues
  | .object _, _, h => by cases h

theorem Value.plainItems_ofJsonItems : ∀ {items : List Json} {values : List Value},
    Value.ofJsonItems items = .ok values → Value.PlainItems values
  | [], _, h => by cases h; trivial
  | _ :: rest, _, h => by
    obtain ⟨value, hvalue, h⟩ := bind_eq_ok_iff.1 h
    obtain ⟨values, hvalues, h⟩ := bind_eq_ok_iff.1 h
    cases h
    exact ⟨Value.plain_ofJson hvalue, Value.plainItems_ofJsonItems hvalues⟩

end

theorem plainEntries_ofJsonMembers {members : List (String × Json)}
    {values : List (String × Value)} (h : Value.ofJsonMembers members = .ok values) :
    PlainEntries values := by
  induction members generalizing values with
  | nil => cases h; simp [PlainEntries]
  | cons member rest ih =>
    obtain ⟨name, json⟩ := member
    simp only [Value.ofJsonMembers] at h
    split at h
    · cases h
    · next value hvalue =>
      obtain ⟨more, hmore, h⟩ := bind_eq_ok_iff.1 h
      cases h
      exact .cons (Value.plain_ofJson hvalue) (ih hmore)

theorem Value.plain_literal {s : String} {v : Value} (h : Value.literal? s = some v) : v.Plain := by
  unfold Value.literal? at h
  split at h
  · cases h; trivial
  · split at h
    · cases h; trivial
    · split at h
      · cases h; trivial
      · cases h

theorem plain_readAssignment {s : String} {entry : String × Value}
    (h : readAssignment? s = some entry) : entry.2.Plain := by
  simp only [readAssignment?] at h
  split at h
  · next value _ =>
    rw [Option.some.injEq] at h
    subst h
    simp only
    cases hl : Value.literal? (String.ofList value) with
    | none => trivial
    | some v => exact Value.plain_literal hl
  · cases h

theorem plainEntries_readVariables {assignments : List String}
    {values : List (String × Value)} (h : assignments.mapM readVariable = .ok values) :
    PlainEntries values := by
  induction assignments generalizing values with
  | nil => cases h; simp [PlainEntries]
  | cons s rest ih =>
    rw [List.mapM_cons] at h
    obtain ⟨entry, hentry, h⟩ := bind_eq_ok_iff.1 h
    obtain ⟨more, hmore, h⟩ := bind_eq_ok_iff.1 h
    cases h
    refine .cons ?_ (ih hmore)
    unfold readVariable at hentry
    split at hentry
    · next hs => cases hentry; exact plain_readAssignment hs
    · cases hentry

theorem plainEntries_readContext {read : FileReader} {path : String}
    {values : List (String × Value)} (h : readContext read path = .ok values) :
    PlainEntries values := by
  obtain ⟨text, -, h⟩ := bind_eq_ok_iff.1 h
  split at h
  · cases h
  · exact plainEntries_ofJsonMembers (mapError_eq_ok_iff.1 h)
  · cases h

/-- **The lists of a session are plain that the command starts.** -/
theorem seededEngine_listsPlain {read : FileReader} {trimSpaces : Bool} {assignments : List String}
    {context : Option String} {input : String} {e : Engine}
    (h : seededEngine read trimSpaces assignments context input = .ok e) :
    e.config.LoadsDocuments ∧ e.environment.ListsPlain := by
  have hempty : Environment.empty.ListsPlain := by rintro name value ⟨⟩
  have hsession : ∀ {first : List (String × Value)}, PlainEntries first →
      (do let more ← assignments.mapM readVariable
          return (⟨⟨trimSpaces, some (.files read ((parentPath? input).getD "."))⟩,
            Environment.empty.setVariables (first ++ more)⟩ : Engine)) = Except.ok e →
      e.config.LoadsDocuments ∧ e.environment.ListsPlain := by
    intro first hfirst h
    obtain ⟨more, hmore, h⟩ := bind_eq_ok_iff.1 h
    cases h
    refine ⟨.inr (.inr ⟨_, _, rfl⟩), hempty.setVariables fun entry he => ?_⟩
    rcases List.mem_append.1 he with he | he
    · exact hfirst entry he
    · exact plainEntries_readVariables hmore entry he
  cases context with
  | none => exact hsession (by simp [PlainEntries]) h
  | some path =>
    obtain ⟨first, hfirst, h⟩ := bind_eq_ok_iff.1 h
    exact hsession (plainEntries_readContext hfirst) h

/-! ## Every evaluation -/

/-- **Evaluation ends.**  In a session whose lists are plain, and whose modules are documents, every
    block and its text are evaluated to a value or an error, and the lists stay plain.  The bounds
    of the levels play no part in it, nor does what an element would do while more than
    `maxActive` elements are active: none ever runs then.  The sessions that the command starts are
    of this kind. -/
theorem Engine.evaluation_ends :
    (∀ e : Engine, e.config.LoadsDocuments → e.environment.ListsPlain → ∀ b : Block,
      ((∃ r : Except EvalError (Option Value), (e.evaluateBlock b).1 = r.mapError .error) ∧
        ∃ r : Except EvalError String, (e.evaluate b).1 = r.mapError .error) ∧
      ((e.evaluateBlock b).2.environment.ListsPlain ∧ (e.evaluate b).2.environment.ListsPlain) ∧
      (∀ n depth, maxActive ≤ n →
        e.run ((level e.config (directive e.config) n depth).block b) = e.evaluateBlock b ∧
        e.run ((level e.config (directive e.config) n depth).blockText b) = e.evaluate b) ∧
      ∀ other : Level → ElementEvaluator,
        (∀ l name arguments s, s.active ≤ maxActive →
          (other l name arguments).outcome s = (directive e.config l name arguments).outcome s) →
        ∀ n depth, level e.config other n depth = level e.config (directive e.config) n depth) ∧
    ∀ read trimSpaces assignments context input e,
      seededEngine read trimSpaces assignments context input = .ok e →
      e.config.LoadsDocuments ∧ e.environment.ListsPlain := by
  refine ⟨fun e hc he b => ?_, fun _ _ _ _ _ _ => seededEngine_listsPlain⟩
  have hlevels := fun (n k : Nat) (hn : maxActive ≤ n) =>
    Lockstep.plainLists_levels hc (Nat.le_refl maxActive) hn maxPrintDepth k
  have hblock := fun n k hn => ((hlevels n k hn).block (Lockstep.plainLists_block 0 b)).ends he
  have htext := fun n k hn => ((hlevels n k hn).blockText (Lockstep.plainLists_block 0 b)).ends he
  obtain ⟨hvalue, hplain, -⟩ := hblock maxActive maxPrintDepth (Nat.le_refl _)
  obtain ⟨hstring, hplain', -⟩ := htext maxActive maxPrintDepth (Nat.le_refl _)
  exact ⟨⟨hvalue, hstring⟩, ⟨hplain, hplain'⟩,
    fun n k hn => ⟨(hblock n k hn).2.2, (htext n k hn).2.2⟩, fun other h => level_congr h⟩

/-- A variable whose block refers to the variable. -/
theorem Engine.evaluation_ends_self_reference :
    ∃ r : Except EvalError (Option Value),
      (Engine.evaluateBlock ⟨.default, ⟨[("x", .deferred [.element "" [[.text "x"]]])], []⟩⟩
        [.element "" [[.text "x"]]]).1 = r.mapError .error := by
  refine (Engine.evaluation_ends.1 _ (.inl rfl) ?_ _).1.1
  intro name value h
  simp only [Bindings.get?] at h
  split at h
  · cases h
    trivial
  · cases h

end BraceMarkup
