/-
  The arguments of the command.

  The first argument names what to do, the others are its options and its
  input.  An option has a long name after two hyphens and may have a letter
  after one.  Its value stands behind an equals sign, right behind the letter,
  or in the next argument, where it must not look like an option.  Behind an
  argument of two hyphens everything is input.  All options but `--var` may be
  given once.

  * `Invocation`: what the command is asked to do;
  * `Request`: an invocation, a question about the command itself, or neither;
  * `readItems`: arguments as options and inputs;
  * `Request.ofArguments`: the request that some arguments make.
-/
import BraceMarkup.Format

namespace BraceMarkup

/-! ## Requests -/

/-- What the command is asked to do with its input. -/
inductive Invocation where
  /-- Write a document in a format. -/
  | transpile (format : Format) (output input : String)
  /-- Evaluate a document as a template. -/
  | template (trimSpaces : Bool) (assignments : List String) (context : Option String)
      (output input : String)
  /-- Write the text of a document, or its metadata. -/
  | document (metadata : Bool) (output input : String)
  deriving Repr, DecidableEq

/-- What the arguments of the command amount to. -/
inductive Request where
  | run (invocation : Invocation)
  | help
  | version
  /-- The arguments are wrong. -/
  | misuse
  deriving Repr, DecidableEq

/-! ## Options -/

/-- An option of the command. -/
inductive OptionName where
  | format
  | output
  | metadata
  | trimSpaces
  | assignment
  | context
  | help
  deriving Repr, DecidableEq

namespace OptionName

/-- What stands behind the two hyphens. -/
def long : OptionName → String
  | format => "format"
  | output => "output"
  | metadata => "metadata"
  | trimSpaces => "trim-spaces"
  | assignment => "var"
  | context => "context"
  | help => "help"

/-- What stands behind a single hyphen. -/
def letter? : OptionName → Option Char
  | format => some 'f'
  | output => some 'o'
  | help => some 'h'
  | _ => none

/-- Whether the option has a value. -/
def hasValue : OptionName → Bool
  | format | output | assignment | context => true
  | metadata | trimSpaces | help => false

end OptionName

/-- A part of the arguments. -/
inductive Item where
  | flag (name : OptionName)
  | option (name : OptionName) (value : String)
  | input (value : String)
  deriving Repr, DecidableEq

/-- Whether an argument looks like an option: a hyphen with something behind it. -/
def looksLikeOption (argument : String) : Bool :=
  match argument.toList with
  | '-' :: _ :: _ => true
  | _ => false

/-- An option as an argument spells it, and its value if that stands in the same argument. -/
def spelledOption? (known : List OptionName) (argument : String) :
    Option (OptionName × Option String) :=
  match argument.toList with
  | '-' :: '-' :: rest => do
    let name := String.ofList (rest.takeWhile (· != '='))
    let option ← known.find? fun o => o.long = name
    match rest.dropWhile (· != '=') with
    | _ :: value => return (option, some (String.ofList value))
    | [] => return (option, none)
  | '-' :: letter :: rest => do
    let option ← known.find? fun o => o.letter? = some letter
    if !option.hasValue then return (option, none)
    match rest with
    | [] => return (option, none)
    | '=' :: value => return (option, some (String.ofList value))
    | value => return (option, some (String.ofList value))
  | _ => none

/-- Arguments as options and inputs; a request for help ends them.  `inputs` says that two hyphens
    have been passed. -/
def readItems (known : List OptionName) (inputs : Bool) : List String → Option (List Item)
  | [] => some []
  | argument :: rest =>
    if inputs then do return .input argument :: (← readItems known inputs rest)
    else if argument = "--" then readItems known true rest
    else if looksLikeOption argument then do
      let (option, attached) ← spelledOption? known argument
      if option = .help ∧ attached.isNone then return [.flag .help]
      match option.hasValue, attached with
      | false, some _ => none
      | false, none => return .flag option :: (← readItems known inputs rest)
      | true, some value => return .option option value :: (← readItems known inputs rest)
      | true, none =>
        match rest with
        | value :: rest =>
          if looksLikeOption value then none
          else return .option option value :: (← readItems known inputs rest)
        | [] => none
    else do return .input argument :: (← readItems known inputs rest)

/-! ## Settings -/

/-- What options and inputs have set. -/
structure Settings where
  format : Option Format := none
  output : Option String := none
  metadata : Bool := false
  trimSpaces : Bool := false
  assignments : List String := []
  context : Option String := none
  input : Option String := none
  deriving Repr, DecidableEq

/-- Sets what an item asks for.  There is nothing to set if the item repeats what may be given once,
    names an unknown format or leaves a path empty. -/
def Settings.add (s : Settings) (item : Item) : Option Settings :=
  match item with
  | .flag .metadata => if s.metadata then none else some { s with metadata := true }
  | .flag .trimSpaces => if s.trimSpaces then none else some { s with trimSpaces := true }
  | .flag _ => some s
  | .option .format name => do
    let format ← Format.ofName? name
    if s.format.isSome then none else return { s with format }
  | .option .output path => if s.output.isSome then none else some { s with output := path }
  | .option .context path =>
    if s.context.isSome ∨ path.isEmpty then none else some { s with context := path }
  | .option _ text => some { s with assignments := s.assignments ++ [text] }
  | .input path =>
    if s.input.isSome ∨ path.isEmpty then none else some { s with input := path }

/-! ## Commands -/

/-- The options that a command knows. -/
def commandOptions? (command : String) : Option (List OptionName) :=
  match command with
  | "transpile" => some [.format, .output, .help]
  | "template" => some [.output, .trimSpaces, .assignment, .context, .help]
  | "document" => some [.output, .metadata, .help]
  | _ => none

/-- What a command asks for under some settings, if it has an input.  The result goes to the
    standard output unless a file is named. -/
def Settings.invocation? (s : Settings) (command : String) : Option Invocation := do
  let input ← s.input
  let output := s.output.getD "-"
  match command with
  | "transpile" => return .transpile (s.format.getD .json) output input
  | "template" => return .template s.trimSpaces s.assignments s.context output input
  | "document" => return .document s.metadata output input
  | _ => none

/-- What the arguments behind the name of a command ask for. -/
def Request.ofCommand (command : String) (arguments : List String) : Request :=
  let request? : Option Request := do
    let known ← commandOptions? command
    let items ← readItems known false arguments
    let settings ← items.foldlM Settings.add {}
    if items.contains (.flag .help) then return .help
    else return .run (← settings.invocation? command)
  request?.getD .misuse

/-- The request that some arguments make. -/
def Request.ofArguments (arguments : List String) : Request :=
  match arguments with
  | [] => .misuse
  | first :: rest =>
    if first = "--version" then .version
    else if first = "--help" then .help
    else if first = "help" then
      if rest = [] ∨ (rest.length = 1 ∧ rest.all fun c => c = "help" ∨ (commandOptions? c).isSome)
      then .help else .misuse
    else
      match first.toList with
      | '-' :: 'V' :: _ => .version
      | '-' :: 'h' :: _ => .help
      | _ => Request.ofCommand first rest

end BraceMarkup
