/-
  A run of the command does all or nothing.

  What a run writes is worked out before anything is written, so a run that
  fails leaves no trace but its report.  A run that ends well has written the
  whole rendering of its input to one place, the one that its arguments name.

  * `outputPaths`, `SendsTo`: where some arguments send the result;
  * `Invocation.Renders`: what an invocation writes, told stage by stage;
  * `Invocation.emission_eq_ok_iff`: an invocation has something to write if
    and only if all of its stages end well;
  * `Outcome.all_or_nothing`: **a run writes all of its result to one place, or
    nothing at all**.
-/
import BraceMarkup.CommandLine.Run
import BraceMarkup.Proofs.FileSystem.Writing

namespace BraceMarkup

/-! ## Where the result goes -/

/-- The values of the output options among some items. -/
def outputPaths (items : List Item) : List String :=
  items.filterMap fun
    | .option .output path => some path
    | _ => none

/-- The arguments send the result of a command to `output`: they have one output option, which names
    it, or none, and the result goes to the standard output. -/
def SendsTo (arguments : List String) (output : String) : Prop :=
  ∃ command rest known items, arguments = command :: rest ∧ commandOptions? command = some known ∧
    readItems known false rest = some items ∧
    (outputPaths items = [output] ∨ outputPaths items = [] ∧ output = "-")

/-- Arguments send the result to one place at most. -/
theorem SendsTo.unique {arguments : List String} {output output' : String}
    (h : SendsTo arguments output) (h' : SendsTo arguments output') : output = output' := by
  obtain ⟨command, rest, known, items, rfl, hknown, hitems, houtput⟩ := h
  obtain ⟨_, _, known', items', ⟨⟩, hknown', hitems', houtput'⟩ := h'
  obtain rfl := Option.some.inj (hknown.symm.trans hknown')
  obtain rfl := Option.some.inj (hitems.symm.trans hitems')
  rcases houtput with houtput | ⟨houtput, rfl⟩ <;>
    rcases houtput' with houtput' | ⟨houtput', rfl⟩ <;>
    cases houtput.symm.trans houtput' <;> rfl

/-- Where an invocation sends its result. -/
def Invocation.output : Invocation → String
  | transpile _ output _ | template _ _ _ output _ | document _ output _ => output

/-- An item sets the output if it is an output option, and there is none yet. -/
theorem Settings.output_add {s t : Settings} {item : Item} (h : s.add item = some t) :
    t.output.toList = s.output.toList ++ outputPaths [item] := by
  cases item with
  | flag name =>
    have hsame : t.output = s.output := by
      cases name <;> simp only [Settings.add] at h
      case metadata | trimSpaces =>
        split at h <;> cases h
        rfl
      all_goals cases h; rfl
    rw [hsame]
    exact (List.append_nil _).symm
  | option name value =>
    cases name with
    | output =>
      simp only [Settings.add] at h
      split at h <;> cases h
      next hnone =>
      rw [Bool.not_eq_true, Option.isSome_eq_false_iff, Option.isNone_iff_eq_none] at hnone
      rw [hnone]
      rfl
    | format =>
      simp only [Settings.add, Option.bind_eq_bind, Option.bind_eq_some_iff] at h
      obtain ⟨format, -, h⟩ := h
      split at h <;> cases h
      exact (List.append_nil _).symm
    | context =>
      simp only [Settings.add] at h
      split at h <;> cases h
      exact (List.append_nil _).symm
    | _ =>
      cases h
      exact (List.append_nil _).symm
  | input path =>
    simp only [Settings.add] at h
    split at h <;> cases h
    exact (List.append_nil _).symm

theorem Settings.output_foldlM {items : List Item} {s t : Settings}
    (h : items.foldlM Settings.add s = some t) :
    t.output.toList = s.output.toList ++ outputPaths items := by
  induction items generalizing s with
  | nil =>
    cases h
    exact (List.append_nil _).symm
  | cons item rest ih =>
    rw [List.foldlM_cons, Option.bind_eq_bind, Option.bind_eq_some_iff] at h
    obtain ⟨u, hitem, hrest⟩ := h
    rw [ih hrest, Settings.output_add hitem, List.append_assoc, outputPaths, outputPaths,
      ← List.filterMap_append]
    rfl

theorem Settings.output_invocation? {s : Settings} {command : String} {i : Invocation}
    (h : s.invocation? command = some i) : i.output = s.output.getD "-" := by
  unfold Settings.invocation? at h
  rw [Option.bind_eq_bind, Option.bind_eq_some_iff] at h
  obtain ⟨input, -, h⟩ := h
  dsimp only at h
  split at h
  · cases h; rfl
  · cases h; rfl
  · cases h; rfl
  · cases h

/-- A run is asked for by the name of a command and what stands behind it. -/
theorem exists_command_of_run {arguments : List String} {i : Invocation}
    (h : Request.ofArguments arguments = .run i) :
    ∃ command rest, arguments = command :: rest ∧ Request.ofCommand command rest = .run i := by
  cases arguments with
  | nil => cases h
  | cons first rest =>
    refine ⟨first, rest, rfl, ?_⟩
    simp only [Request.ofArguments] at h
    split at h
    · cases h
    split at h
    · cases h
    split at h
    · split at h <;> cases h
    split at h
    · cases h
    · cases h
    · exact h

/-- The stages in which a run is read off the arguments of its command. -/
theorem Request.ofCommand_eq_run {command : String} {arguments : List String} {i : Invocation}
    (h : Request.ofCommand command arguments = .run i) :
    ∃ known items settings, commandOptions? command = some known ∧
      readItems known false arguments = some items ∧
      items.foldlM Settings.add {} = some settings ∧ settings.invocation? command = some i := by
  have hsome : ∀ {request? : Option Request}, request?.getD .misuse = .run i →
      request? = some (.run i) := by
    rintro (_ | request) hget
    · cases hget
    · exact congrArg some hget
  have h := hsome h
  simp only [Option.bind_eq_bind, Option.bind_eq_some_iff] at h
  obtain ⟨known, hknown, items, hitems, settings, hsettings, h⟩ := h
  split at h
  · cases h
  rw [Option.bind_eq_some_iff] at h
  obtain ⟨j, hi, hj⟩ := h
  cases hj
  exact ⟨known, items, settings, hknown, hitems, hsettings, hi⟩

/-- The arguments of a run send its result where the invocation says. -/
theorem sendsTo_of_run {arguments : List String} {i : Invocation}
    (h : Request.ofArguments arguments = .run i) : SendsTo arguments i.output := by
  obtain ⟨command, rest, rfl, hcommand⟩ := exists_command_of_run h
  obtain ⟨known, items, settings, hknown, hitems, hsettings, hi⟩ :=
    Request.ofCommand_eq_run hcommand
  refine ⟨command, rest, known, items, rfl, hknown, hitems, ?_⟩
  have houtput := Settings.output_foldlM hsettings
  rw [Settings.output_invocation? hi]
  cases hs : settings.output with
  | none =>
    rw [hs] at houtput
    exact .inr ⟨houtput.symm, rfl⟩
  | some path =>
    rw [hs] at houtput
    exact .inl houtput.symm

/-! ## What is written -/

/-- The variables that the members of an object in a file give, if a file is named. -/
inductive ContextGives (read : FileReader) : Option String → List (String × Value) → Prop
  | nothing : ContextGives read none []
  | file {path text members given} : read.text path = .ok text →
      Json.read? Json.maxDepth text = some (.object members) →
      Value.contextOfJson members = .ok given → ContextGives read (some path) given

/-- What an invocation writes: its input can be read and is the text of a document, and the document
    can be rendered, or evaluated with all its variables. -/
inductive Invocation.Renders (read : FileReader) : Invocation → String → Prop
  | transpile {format output input source block content} : read.text input = .ok source →
      Block.ofSource source = .ok block → format.render block = .ok content →
      Renders read (.transpile format output input) content
  | template {trimSpaces assignments context output input source block given more content} :
      read.text input = .ok source → Block.ofSource source = .ok block →
      ContextGives read context given → assignments.map readAssignment? = more.map some →
      (Engine.evaluate ⟨⟨trimSpaces, some (.files read ((parentPath? input).getD "."))⟩,
        Environment.empty.setVariables (given ++ more)⟩ block).1 = .ok content →
      Renders read (.template trimSpaces assignments context output input)
        (Text.trim content ++ "\n")
  | metadata {output input source block document} : read.text input = .ok source →
      Block.ofSource source = .ok block → Document.ofBlock block = .ok document →
      Renders read (.document true output input) (document.metadata.toJson.indented 2 ++ "\n")
  | text {output input source block document} : read.text input = .ok source →
      Block.ofSource source = .ok block → Document.ofBlock block = .ok document →
      Renders read (.document false output input) document.text

section
variable {read : FileReader}

theorem readSource_eq_ok_iff {path source : String} :
    readSource read path = .ok source ↔ read.text path = .ok source :=
  mapError_eq_ok_iff

theorem readDocument_eq_ok_iff {path : String} {b : Block} :
    readDocument read path = .ok b ↔
      ∃ source, read.text path = .ok source ∧ Block.ofSource source = .ok b := by
  simp only [readDocument, bind_eq_ok_iff, mapError_eq_ok_iff, readSource_eq_ok_iff]

theorem readContext_eq_ok_iff {path : String} {given : List (String × Value)} :
    readContext read path = .ok given ↔ ContextGives read (some path) given := by
  simp only [readContext, bind_eq_ok_iff, readSource_eq_ok_iff]
  constructor
  · rintro ⟨text, htext, h⟩
    split at h
    · cases h
    · next members hmembers =>
      exact .file htext hmembers (mapError_eq_ok_iff.1 h)
    · cases h
  · rintro (- | ⟨htext, hmembers, hgiven⟩)
    refine ⟨_, htext, ?_⟩
    simp only [hmembers]
    exact mapError_eq_ok_iff.2 hgiven

theorem readVariable_eq_ok_iff {assignment : String} {binding : String × Value} :
    readVariable assignment = .ok binding ↔ readAssignment? assignment = some binding := by
  unfold readVariable
  cases readAssignment? assignment <;> simp

theorem mapM_readVariable_eq_ok_iff {assignments : List String} {more : List (String × Value)} :
    assignments.mapM readVariable = .ok more ↔
      assignments.map readAssignment? = more.map some := by
  induction assignments generalizing more with
  | nil => cases more <;> simp [pure, Except.pure]
  | cons assignment rest ih =>
    simp only [List.mapM_cons, bind_eq_ok_iff, readVariable_eq_ok_iff, ih, List.map_cons]
    constructor
    · rintro ⟨binding, hbinding, later, hlater, ⟨⟩⟩
      rw [List.map_cons, hbinding, hlater]
    · intro h
      cases more with
      | nil => cases h
      | cons binding later =>
        obtain ⟨hbinding, hlater⟩ := List.cons.inj h
        exact ⟨binding, hbinding, later, hlater, rfl⟩

theorem seededEngine_eq_ok_iff {trimSpaces : Bool} {assignments : List String}
    {context : Option String} {input : String} {e : Engine} :
    seededEngine read trimSpaces assignments context input = .ok e ↔
      ∃ given more, ContextGives read context given ∧
        assignments.map readAssignment? = more.map some ∧
        e = ⟨⟨trimSpaces, some (.files read ((parentPath? input).getD "."))⟩,
          Environment.empty.setVariables (given ++ more)⟩ := by
  cases context with
  | none =>
    simp only [seededEngine, bind_eq_ok_iff, mapM_readVariable_eq_ok_iff]
    constructor
    · rintro ⟨_, ⟨⟩, more, hmore, ⟨⟩⟩
      exact ⟨[], more, .nothing, hmore, rfl⟩
    · rintro ⟨given, more, ⟨⟩, hmore, rfl⟩
      exact ⟨[], rfl, more, hmore, rfl⟩
  | some path =>
    simp only [seededEngine, bind_eq_ok_iff, mapM_readVariable_eq_ok_iff, readContext_eq_ok_iff]
    constructor
    · rintro ⟨given, hgiven, more, hmore, ⟨⟩⟩
      exact ⟨given, more, hgiven, hmore, rfl⟩
    · rintro ⟨given, more, hgiven, hmore, rfl⟩
      exact ⟨given, hgiven, more, hmore, rfl⟩

/-- **An invocation has something to write if and only if all of its stages end well.** -/
theorem Invocation.emission_eq_ok_iff {i : Invocation} {e : Emission} :
    i.emission read = .ok e ↔ e.output = i.output ∧ i.Renders read e.content := by
  obtain ⟨output, content⟩ := e
  cases i with
  | transpile format output' input =>
    simp only [emission, bind_eq_ok_iff, mapError_eq_ok_iff, readDocument_eq_ok_iff]
    constructor
    · rintro ⟨b, ⟨source, hsource, hb⟩, _, hrender, ⟨⟩⟩
      exact ⟨rfl, .transpile hsource hb hrender⟩
    · rintro ⟨rfl, h⟩
      cases h with
      | transpile hsource hb hrender => exact ⟨_, ⟨_, hsource, hb⟩, _, hrender, rfl⟩
  | template trimSpaces assignments context output' input =>
    simp only [emission, bind_eq_ok_iff, mapError_eq_ok_iff, readDocument_eq_ok_iff,
      seededEngine_eq_ok_iff]
    constructor
    · rintro ⟨b, ⟨source, hsource, hb⟩, _, ⟨given, more, hcontext, hmore, rfl⟩, _, heval, ⟨⟩⟩
      exact ⟨rfl, .template hsource hb hcontext hmore heval⟩
    · rintro ⟨rfl, h⟩
      cases h with
      | template hsource hb hcontext hmore heval =>
        exact ⟨_, ⟨_, hsource, hb⟩, _, ⟨_, _, hcontext, hmore, rfl⟩, _, heval, rfl⟩
  | document metadata output' input =>
    simp only [emission, bind_eq_ok_iff, mapError_eq_ok_iff, readDocument_eq_ok_iff]
    constructor
    · rintro ⟨b, ⟨source, hsource, hb⟩, document, hdocument, h⟩
      cases metadata <;> cases h
      exacts [⟨rfl, .text hsource hb hdocument⟩, ⟨rfl, .metadata hsource hb hdocument⟩]
    · rintro ⟨rfl, h⟩
      cases h with
      | metadata hsource hb hdocument | text hsource hb hdocument =>
        exact ⟨_, ⟨_, hsource, hb⟩, _, hdocument, rfl⟩

end

/-! ## What a run leaves behind -/

/-- A text has been written where it goes, or nothing at all. -/
theorem Emission.perform_cases (e : Emission) (s : FileSystem) :
    (e.perform s).code = 0 ∧
        (e.output = "-" ∧ (e.perform s).stdout = e.content ∧ (e.perform s).files = s ∨
          e.output ≠ "-" ∧ (e.perform s).stdout = "" ∧
            s.Written e.output e.content.toUTF8 (e.perform s).files) ∨
      (e.perform s).code = 1 ∧ (e.perform s).stdout = "" ∧ (e.perform s).files = s := by
  unfold perform
  split
  · next houtput => exact .inl ⟨rfl, .inl ⟨houtput, rfl, rfl⟩⟩
  · next houtput =>
    cases hwrite : s.write e.output e.content.toUTF8 with
    | ok after => exact .inl ⟨rfl, .inr ⟨houtput, rfl, FileSystem.written_of_write hwrite⟩⟩
    | error cause => exact .inr ⟨rfl, rfl, rfl⟩

/-- **A run writes all of its result to one place, or nothing at all.**  A run that fails writes
    nothing to the standard output and changes no file.  One that ends well writes the whole
    rendering where its arguments send it, to the standard output or to one file, and leaves all
    other files as they were. -/
theorem Outcome.all_or_nothing {arguments : List String} {i : Invocation}
    (h : Request.ofArguments arguments = .run i) (s : FileSystem) :
    let o := Outcome.ofArguments arguments s
    (o.code ≠ 0 → o.stdout = "" ∧ o.files = s) ∧
      (o.code = 0 → ∃ content output, i.Renders s.read content ∧ SendsTo arguments output ∧
        (output = "-" ∧ o.stdout = content ∧ o.files = s ∨
          output ≠ "-" ∧ o.stdout = "" ∧
            s.Written output content.toUTF8 o.files)) := by
  intro o
  cases he : i.emission s.read with
  | error messages =>
    have ho : o = .failed s messages := by simp only [o, Outcome.ofArguments, h, he]
    rw [ho]
    exact ⟨fun _ => ⟨rfl, rfl⟩, fun h0 => absurd h0 (by simp [Outcome.failed])⟩
  | ok e =>
    have ho : o = e.perform s := by simp only [o, Outcome.ofArguments, h, he]
    obtain ⟨houtput, hcontent⟩ := Invocation.emission_eq_ok_iff.1 he
    rw [ho]
    rcases e.perform_cases s with ⟨hcode, hwritten⟩ | ⟨hcode, hnothing⟩
    · refine ⟨fun hne => absurd hcode hne, fun _ => ⟨e.content, e.output, hcontent, ?_, hwritten⟩⟩
      exact houtput ▸ sendsTo_of_run h
    · exact ⟨fun _ => hnothing, fun h0 => absurd (hcode.symm.trans h0) (by decide)⟩

/-- A result that goes to a new file above the directory in which the command runs, and one that
    cannot be written because a directory has the name. -/
theorem Outcome.all_or_nothing_transpile :
    let s : FileSystem :=
      { files := [(["w", "a"], "#p\x7bx\x7d".toUTF8), (["w", "b", "c"], "y".toUTF8)],
        working := ["w"] }
    let toFile := ["transpile", "-f", "json.inline", "-o", "../d", "a"]
    let toDirectory := ["transpile", "-f", "json.inline", "-ob", "a"]
    (∃ content, (Invocation.transpile .jsonInline "../d" "a").Renders s.read content ∧
        (Outcome.ofArguments toFile s).files.read "../d" = .ok content.toUTF8) ∧
      (Outcome.ofArguments toDirectory s).stdout = "" ∧
      (Outcome.ofArguments toDirectory s).files = s := by
  intro s toFile toDirectory
  have hfile : Request.ofArguments toFile = .run (.transpile .jsonInline "../d" "a") := by
    decide +kernel
  have hdirectory : Request.ofArguments toDirectory = .run (.transpile .jsonInline "b" "a") := by
    decide +kernel
  refine ⟨?_, (Outcome.all_or_nothing hdirectory s).1 (by decide +kernel)⟩
  obtain ⟨content, output, hcontent, hsends, hto⟩ :=
    (Outcome.all_or_nothing hfile s).2 (by decide +kernel)
  obtain rfl : output = "../d" := hsends.unique (sendsTo_of_run hfile)
  rcases hto with ⟨hne, -⟩ | ⟨-, -, hwritten⟩
  · exact absurd hne (by decide)
  · exact ⟨content, hcontent, hwritten.read fun _ => rfl⟩

end BraceMarkup
