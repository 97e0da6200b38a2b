/-
  Evaluation of templates.

  A block is evaluated in an environment that every part of it shares.  Text
  stands for itself, an element does what its directive says and may yield a
  value.  A block that consists of one element and blank text yields the value
  of the element; any other block yields text, the texts of its parts one
  after the other.  All elements of a block are evaluated before the first of
  their values is printed.

  An element is active until its directive is done, and only `maxActive`
  elements may be active at a time.

  The definition is by levels.  At level `n`, up to `n` more elements may
  become active inside each other before the evaluation is taken to be endless;
  a directive evaluates its parts one level down.  A list may hold deferred
  blocks, which are evaluated where the list is printed and whose values are
  printed in turn; `depth` bounds how often that may happen inside itself,
  since a list can come to hold itself in this way.

  * `Evaluation`: a computation that reads and changes the environment and
    yields a value, or fails with an `EvalError`, or goes on without end;
  * `Evaluation.whileActive`: a computation during which one more element is
    active;
  * `Level`: how blocks are evaluated and values printed at a level;
  * `directive`: what an element does, in terms of the level below;
  * `level`: the levels;
  * `Engine`, `Engine.evaluate`, `Engine.evaluateBlock`: a session with its
    settings and its environment.
-/
import BraceMarkup.Template.Directive
import BraceMarkup.Text.LineBreaks

namespace BraceMarkup

/-! ## Settings and outcomes -/

/-- The settings of a session. -/
structure Config where
  /-- Whether the spaces around every text are left out. -/
  trimSpaces : Bool
  /-- How modules are found, if they can be imported at all. -/
  loader : Option Loader

/-- Texts stay as they are, and nothing can be imported. -/
def Config.default : Config := ⟨false, none⟩

/-- The settings in words. -/
def Config.describe (c : Config) : String :=
  "Config \x7b trim_spaces: " ++ (if c.trimSpaces then "true" else "false") ++ ", loader: "
    ++ (if c.loader.isSome then "Some(\"<loader>\")" else "None") ++ " \x7d"

/-- Why an evaluation yields nothing. -/
inductive Failure where
  | error (e : EvalError)
  /-- The evaluation goes on without end. -/
  | endless
  deriving Repr, DecidableEq

/-- What an evaluation reads and changes. -/
structure EvaluationState where
  environment : Environment
  /-- How many elements are active. -/
  active : Nat

/-- A computation over the shared environment, whose bindings stay even where it fails. -/
abbrev Evaluation (α : Type) := ExceptT Failure (StateM EvaluationState) α

namespace Evaluation

variable {α : Type}

/-- What a computation yields in a state, and the state it leaves behind. -/
def outcome (x : Evaluation α) (s : EvaluationState) : Except Failure α × EvaluationState :=
  x.run.run s

/-- Fails with a fault in the template. -/
def fail (e : EvalError) : Evaluation α := throw (.error e)

/-- What a variable stands for, if it is bound. -/
def boundVariable (name : String) : Evaluation (Option Value) := do
  return (← get).environment.values.get? name

/-- What a template stands for, if it is bound. -/
def boundTemplate (name : String) : Evaluation (Option Block) := do
  return (← get).environment.templates.get? name

/-- Changes the environment. -/
def change (f : Environment → Environment) : Evaluation Unit :=
  modify fun s => { s with environment := f s.environment }

/-- The part of a value that a directive needs. -/
def expect (directive : String) (part : Except KindError α) : Evaluation α :=
  match part with
  | .ok a => return a
  | .error e => fail (.typeMismatch directive e)

/-- Runs a computation while one more element is active, known as `label`, unless too many
    are. -/
def whileActive (label : String) (x : Evaluation α) : Evaluation α := ExceptT.mk do
  let s ← get
  if maxActive ≤ s.active then return .error (.error (.recursionLimit label))
  set { s with active := s.active + 1 }
  let result ← x.run
  modify fun s => { s with active := s.active - 1 }
  return result

end Evaluation

open Evaluation

/-- The name that an argument spells out: its direct text, trimmed. -/
def bindingName (b : Block) : String := Text.trim b.textContent

/-- Whether a block is one element and otherwise blank text. -/
def Block.isLoneElement (b : Block) : Bool :=
  b.elements.length == 1 &&
    b.all fun node =>
      match node with
      | .text s => Text.isBlankText s
      | .element _ _ => true

/-! ## Printing -/

section
variable (printDeferred : Block → Evaluation String)

mutual

/-- The text of a value, where that of deferred blocks is known. -/
def printValue : Value → Evaluation String
  | .deferred block => printDeferred block
  | .list items => do return "[" ++ String.intercalate ", " (← printItems items) ++ "]"
  | value => return value.display

/-- The texts of some values. -/
def printItems : List Value → Evaluation (List String)
  | [] => return []
  | item :: rest => do
    let text ← printValue item
    return text :: (← printItems rest)

end

end

/-! ## Levels -/

/-- How blocks are evaluated and values printed. -/
structure Level where
  /-- The value of a block, if it yields one. -/
  block : Block → Evaluation (Option Value)
  /-- The text of a value. -/
  print : Value → Evaluation String

/-- The text of a value, if there is one. -/
def Level.printResult (l : Level) : Option Value → Evaluation String
  | none => return ""
  | some value => l.print value

/-- The text of a block. -/
def Level.blockText (l : Level) (b : Block) : Evaluation String := do
  l.printResult (← l.block b)

/-- The value of a variable: a deferred block is evaluated. -/
def Level.force (l : Level) : Value → Evaluation (Option Value)
  | .deferred block => l.block block
  | value => return some value

/-- The value that an argument stands for.  A text alone may be a literal or the name of a
    variable; otherwise it is an error if `strict`, and plain text if not. -/
def Level.resolve (l : Level) (strict : Bool) (b : Block) : Evaluation (Option Value) :=
  match b.singleText? with
  | none => l.block b
  | some text => do
    let text := Text.trim text
    match Value.literal? text with
    | some value => return some value
    | none =>
      match ← boundVariable text with
      | some value => l.force value
      | none => if strict then fail (.unbound text) else l.block b

/-- The items of the list that an argument names. -/
def Level.listItems (l : Level) (directive : String) (b : Block) : Evaluation (List Value) := do
  let name := bindingName b
  match ← boundVariable name with
  | none => fail (.unbound name)
  | some value =>
    match ← l.force value with
    | none => fail (.typeMismatch directive ⟨.list, none⟩)
    | some value => expect directive value.toList

/-- The truth of a condition. -/
def Level.condition (l : Level) (directive : String) (b : Block) : Evaluation Bool := do
  match ← l.resolve true b with
  | none => fail (.typeMismatch directive ⟨.boolean, none⟩)
  | some value => expect directive value.toBool

/-- Evaluates the branch that a condition selects, if there is one. -/
def Level.branch (l : Level) (directive : String) (negated : Bool) (condition body : Block)
    (otherwise : List Block) : Evaluation (Option Value) := do
  let holds ← l.condition directive condition
  if holds != negated then l.resolve false body
  else
    match otherwise with
    | [otherwise] => l.resolve false otherwise
    | _ => return none

/-- Evaluates overrides, if there are any, and then a template. -/
def Level.extendTemplate (l : Level) (name : String) (overrides : List Block) :
    Evaluation (Option Value) := do
  match ← boundTemplate name with
  | none => fail (.unboundTemplate name)
  | some base =>
    if let [overrides] := overrides then discard (l.block overrides)
    l.block base

/-- The value that a name stands for, as a variable or else as a template. -/
def Level.reference (l : Level) (name : String) : Evaluation (Option Value) := do
  match ← boundVariable name with
  | some value => l.force value
  | none =>
    match ← boundTemplate name with
    | some block => l.block block
    | none => fail (.unbound name)

/-- Evaluates a body once for every item, with a variable bound to the item: the texts it yields,
    one after the other. -/
def Level.repeatFor (l : Level) (item : String) (body : Block) : List Value → Evaluation String
  | [] => return ""
  | value :: rest => do
    change (·.setVariable item value)
    let text ← l.blockText body
    return text ++ (← Level.repeatFor l item body rest)

/-- Evaluates the document of a module.  What fails in it fails the import. -/
def Level.document (l : Level) (name source : String) : Evaluation Unit :=
  match Block.ofSource source with
  | .error e => fail (.importFailed name (.document (.malformed e)))
  | .ok block =>
    tryCatch (discard (l.block block)) fun failure =>
      match failure with
      | .error e => fail (.importFailed name (.document (.failed e)))
      | .endless => throw .endless

/-- Imports a module for the names it binds. -/
def Level.importModule (l : Level) (config : Config) (name : String) : Evaluation Unit :=
  match config.loader with
  | none => fail .noLoader
  | some loader =>
    match loader.load name with
    | .error reason => fail (.importFailed name reason.toLoadError)
    | .ok (.document source) => l.document name source
    | .ok (.bindings values) => change (·.setVariables values)

/-- What an element does.  `l` is the level of its parts. -/
def directive (config : Config) (l : Level) (name : String) (arguments : List Block) :
    Evaluation (Option Value) :=
  match Directive.ofName? name, arguments with
  | none, _ => fail (.unknownDirective name)
  | some .importModule, [module] => do
    l.importModule config (bindingName module)
    return none
  | some .template, [binder, body] => do
    change (·.setTemplate (bindingName binder) body)
    return none
  | some .define, [binder, body] => do
    let value ← l.resolve false body
    change (·.setVariable (bindingName binder) (value.getD (.text "")))
    return none
  | some .extends, binder :: overrides =>
    if 1 < overrides.length then fail (.wrongArity name (.orOneMore 1) arguments.length)
    else l.extendTemplate (bindingName binder) overrides
  | some (.conditional negated), condition :: body :: otherwise =>
    if 1 < otherwise.length then fail (.wrongArity name (.orOneMore 2) arguments.length)
    else l.branch name negated condition body otherwise
  | some .foreach, [item, items, body] => do
    let items ← l.listItems name items
    return some (.text (← l.repeatFor (bindingName item) body items))
  | some .intersperse, [items, separator] => do
    let items ← l.listItems name items
    let texts ← items.mapM l.print
    return some (.text (String.intercalate separator.textContent texts))
  | some .char, [binder] =>
    match namedChar? (bindingName binder) with
    | some c => return some (.text c.toString)
    | none => fail (.unknownChar (bindingName binder))
  | some .inline, [body] => l.block (body.mapText Text.removeBreaks)
  | some .reference, [binder] => l.reference (bindingName binder)
  | some d, _ => fail (.wrongArity name d.arity arguments.length)

/-- How a single element is evaluated. -/
abbrev ElementEvaluator := String → List Block → Evaluation (Option Value)

/-- What a node of a block contributes: its text as it will be printed, or the value of the
    element. -/
inductive Part where
  | text (s : String)
  | value (v : Option Value)

/-- Evaluates the elements of a block, first to last. -/
def evaluateParts (config : Config) (element : ElementEvaluator) : Block → Evaluation (List Part)
  | [] => return []
  | .text s :: rest => do
    let s := if config.trimSpaces then Text.trimSpaces s else s
    return .text s :: (← evaluateParts config element rest)
  | .element name arguments :: rest => do
    let value ← element name arguments
    return .value value :: (← evaluateParts config element rest)

/-- The first value that the parts of a block hold. -/
def firstValue? : List Part → Option Value
  | [] => none
  | .value (some v) :: _ => some v
  | _ :: rest => firstValue? rest

/-- The texts of the parts of a block, one after the other. -/
def printParts (print : Value → Evaluation String) : List Part → Evaluation String
  | [] => return ""
  | .text s :: rest => return s ++ (← printParts print rest)
  | .value none :: rest => printParts print rest
  | .value (some v) :: rest => do
    let text ← print v
    return text ++ (← printParts print rest)

/-- Evaluates a block: its elements first, then the text of their values, unless it is one element
    alone. -/
def evaluateNodes (config : Config) (element : ElementEvaluator)
    (print : Value → Evaluation String) (b : Block) : Evaluation (Option Value) := do
  let parts ← evaluateParts config element b
  if b.isLoneElement then return firstValue? parts
  else return some (.text (← printParts print parts))

/-- The level whose elements are evaluated by `element`, given how deeply deferred blocks may yet be
    printed inside each other. -/
def Level.ofElement (config : Config) (element : Nat → ElementEvaluator) : Nat → Level
  | 0 =>
    let print := printValue fun _ => throw .endless
    ⟨evaluateNodes config (element 0) print, print⟩
  | depth + 1 =>
    let print := printValue fun block => (Level.ofElement config element depth).blockText block
    ⟨evaluateNodes config (element (depth + 1)) print, print⟩

/-- The name by which an element is known: its own, or what it refers to. -/
def elementLabel (name : String) (arguments : List Block) : String :=
  match name, arguments with
  | "", binder :: _ => bindingName binder
  | name, _ => name

/-- Level `n`, where deferred blocks may be printed `depth` deep inside each other.  `run` is what
    an element does, given the level of its parts. -/
def level (config : Config) (run : Level → ElementEvaluator) : (n depth : Nat) → Level
  | 0 => Level.ofElement config fun _ name arguments =>
    whileActive (elementLabel name arguments) (throw .endless)
  | n + 1 => Level.ofElement config fun depth name arguments =>
    whileActive (elementLabel name arguments) (run (level config run n depth) name arguments)

/-! ## Sessions -/

/-- How deeply deferred blocks are printed inside each other before that is taken to be endless. -/
def maxPrintDepth : Nat := 1000000

/-- A session: its settings and its environment. -/
structure Engine where
  config : Config
  environment : Environment

namespace Engine

/-- A session in which no name is bound. -/
def ofConfig (config : Config) : Engine := ⟨config, .empty⟩

/-- The level of a document. -/
def topLevel (config : Config) : Level := level config (directive config) maxActive maxPrintDepth

/-- Runs a computation in the environment of a session, in which no element is active. -/
def run {α : Type} (e : Engine) (x : Evaluation α) : Except Failure α × Engine :=
  let (result, s) := x.outcome ⟨e.environment, 0⟩
  (result, { e with environment := s.environment })

/-- The value of a block, if it yields one, and the session afterwards. -/
def evaluateBlock (e : Engine) (b : Block) : Except Failure (Option Value) × Engine :=
  e.run ((topLevel e.config).block b)

/-- The text of a block, and the session afterwards. -/
def evaluate (e : Engine) (b : Block) : Except Failure String × Engine :=
  e.run ((topLevel e.config).blockText b)

end Engine

end BraceMarkup
