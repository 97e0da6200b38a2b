/-
  What the command does.

  A run reads its input and says what to write where, or why it cannot.
  Nothing is written before everything has been read and worked out, so a run
  that fails leaves everything as it was.

  * `Emission`, `Invocation.emission`: a text and where it goes, or the
    messages of a failure, outermost first;
  * `Outcome`, `Outcome.ofArguments`: all that a run leaves behind: its exit
    code, its output, its messages and the files.
-/
import BraceMarkup.CommandLine.Arguments
import BraceMarkup.Document
import BraceMarkup.Template.Context
import BraceMarkup.Template.Evaluation

namespace BraceMarkup

/-! ## What is to be written -/

/-- A text, and the path of the file it is written to; a hyphen stands for the standard output. -/
structure Emission where
  output : String
  content : String
  deriving Repr, DecidableEq

/-- The messages of a failure, outermost first. -/
abbrev Failed := List String

/-- The text of a file. -/
def readSource (read : FileReader) (path : String) : Except Failed String :=
  (read.text path).mapError fun e => ["cannot read " ++ path ++ ": " ++ e.message]

/-- The document in a file. -/
def readDocument (read : FileReader) (path : String) : Except Failed Block := do
  (Block.ofSource (← readSource read path)).mapError fun e => path :: e.message :: e.causes

/-- The variables that a file of JSON gives. -/
def readContext (read : FileReader) (path : String) : Except Failed (List (String × Value)) := do
  match Json.read? Json.maxDepth (← readSource read path) with
  | none => throw ["invalid JSON in " ++ path]
  | some (.object members) =>
    (Value.contextOfJson members).mapError fun (name, e) =>
      [path ++ ": member " ++ Text.quoted name, e.message]
  | some _ => throw [path ++ ": context must be a JSON object"]

/-- The variable of an assignment among the arguments. -/
def readVariable (assignment : String) : Except Failed (String × Value) :=
  match readAssignment? assignment with
  | some binding => .ok binding
  | none => .error ["expected NAME=VALUE, got " ++ Text.quoted assignment]

/-- The session in which the document at `input` is evaluated: modules are found beside it, and the
    variables of the context are bound before those of the assignments. -/
def seededEngine (read : FileReader) (trimSpaces : Bool) (assignments : List String)
    (context : Option String) (input : String) : Except Failed Engine := do
  let root := (parentPath? input).getD "."
  let fromContext ← match context with
    | some path => readContext read path
    | none => pure []
  let more ← assignments.mapM readVariable
  let environment := Environment.empty.setVariables (fromContext ++ more)
  return { config := ⟨trimSpaces, some (.files read root)⟩, environment }

/-- The messages of a failed evaluation, outermost first. -/
def Failure.messages : Failure → List String
  | .error e => e.message :: e.causes
  | .endless => ["a list is part of its own text"]

/-- What an invocation writes, or why it fails. -/
def Invocation.emission (read : FileReader) : Invocation → Except Failed Emission
  | .transpile format output input => do
    let block ← readDocument read input
    let content ← (format.render block).mapError fun e =>
      ["cannot render " ++ input ++ " as " ++ format.name, e.message]
    return ⟨output, content⟩
  | .template trimSpaces assignments context output input => do
    let block ← readDocument read input
    let engine ← seededEngine read trimSpaces assignments context input
    let content ← (engine.evaluate block).1.mapError fun failure =>
      ("cannot evaluate " ++ input) :: failure.messages
    return ⟨output, Text.trim content ++ "\n"⟩
  | .document metadata output input => do
    let block ← readDocument read input
    let document ← (Document.ofBlock block).mapError fun e =>
      ["cannot render " ++ input, e.message]
    return ⟨output,
      if metadata then document.metadata.toJson.indented 2 ++ "\n" else document.text⟩

/-! ## What a run leaves behind -/

/-- The text that names the program and its version. -/
def versionText : String := "textml 0.1.0\n"

/-- The text that explains the arguments. -/
def usageText : String :=
  "Usage: textml transpile [-f FORMAT] [-o OUTPUT] INPUT\n"
    ++ "       textml template [-o OUTPUT] [--trim-spaces] [--var NAME=VALUE]... "
    ++ "[--context FILE] INPUT\n"
    ++ "       textml document [-o OUTPUT] [--metadata] INPUT\n"

/-- The line that reports a failure. -/
def failureText (messages : Failed) : String :=
  "Error: " ++ String.intercalate ": " messages ++ "\n"

/-- All that a run leaves behind. -/
structure Outcome where
  code : Nat
  stdout : String
  stderr : String
  files : FileSystem

/-- The outcome of a run that fails: nothing but a report. -/
def Outcome.failed (files : FileSystem) (messages : Failed) : Outcome :=
  ⟨1, "", failureText messages, files⟩

/-- The outcome of writing a text where it goes. -/
def Emission.perform (e : Emission) (files : FileSystem) : Outcome :=
  if e.output = "-" then ⟨0, e.content, "", files⟩
  else
    match files.write e.output e.content.toUTF8 with
    | .ok after => ⟨0, "", "", after⟩
    | .error cause =>
      .failed files ["cannot write " ++ e.output ++ ": " ++ cause.message]

/-- The outcome of running the command with some arguments. -/
def Outcome.ofArguments (arguments : List String) (files : FileSystem) : Outcome :=
  match Request.ofArguments arguments with
  | .misuse => ⟨2, "", usageText, files⟩
  | .help => ⟨0, usageText, "", files⟩
  | .version => ⟨0, versionText, "", files⟩
  | .run invocation =>
    match invocation.emission files.read with
    | .ok emission => emission.perform files
    | .error messages => .failed files messages

end BraceMarkup
