/-
  What can go wrong when a template is evaluated.

  * `EvalError`, `LoadError`, `DocumentFault`: the faults; a failed import holds
    why its module could not be loaded, and that may be a fault in the document
    of the module, which may have failed at an import of its own;
  * `EvalError.message`: a fault in words;
  * `EvalError.causes`: the messages of the causes behind a fault;
  * `EvalError.agrees`: whether two faults tell a reader the same.
-/
import BraceMarkup.Template.Module
import BraceMarkup.Text.Quoted

namespace BraceMarkup

/-- How many elements may be active at the same time. -/
def maxActive : Nat := 128

/-- How many arguments an element takes. -/
inductive Arity where
  | exactly (n : Nat)
  /-- A number of arguments, or one more. -/
  | orOneMore (n : Nat)
  deriving Repr, DecidableEq

/-- The numbers of arguments in words. -/
def Arity.describe : Arity → String
  | exactly n => toString n
  | orOneMore n => toString n ++ " or " ++ toString (n + 1)

mutual

/-- A fault in a template. -/
inductive EvalError where
  | unknownDirective (name : String)
  | wrongArity (name : String) (expected : Arity) (found : Nat)
  | unbound (name : String)
  | unboundTemplate (name : String)
  | typeMismatch (directive : String) (cause : KindError)
  | unknownChar (name : String)
  | noLoader
  | importFailed (module : String) (cause : LoadError)
  | recursionLimit (name : String)
  deriving Repr, DecidableEq

/-- Why a module could not be loaded. -/
inductive LoadError where
  | unreadable (path : String) (cause : FileError)
  | document (cause : DocumentFault)
  | notFound (name : String)
  deriving Repr, DecidableEq

/-- A fault in a document: in its text, or in its evaluation. -/
inductive DocumentFault where
  | malformed (cause : SourceError)
  | failed (cause : EvalError)
  deriving Repr, DecidableEq

end

/-- A loader had no module to evaluate. -/
def Unavailable.toLoadError : Unavailable → LoadError
  | unreadable path cause => .unreadable path cause
  | notFound name => .notFound name
  | malformed cause => .document (.malformed cause)

/-- The fault of an import for which there is no module to evaluate. -/
abbrev EvalError.unloadable (module : String) (reason : Unavailable) : EvalError :=
  .importFailed module reason.toLoadError

/-- The fault of an import whose module could not be evaluated. -/
@[match_pattern] abbrev EvalError.imported (module : String) (cause : EvalError) : EvalError :=
  .importFailed module (.document (.failed cause))

/-! ## Messages -/

mutual

/-- The fault in words.  A failed import goes on with what made it fail. -/
def EvalError.message : EvalError → String
  | .unknownDirective name => "unknown directive #" ++ name
  | .wrongArity name expected found =>
    "#" ++ name ++ " expects " ++ expected.describe ++ " argument(s), got " ++ toString found
  | .unbound name => "no binding for " ++ Text.quoted name
  | .unboundTemplate name => "no template named " ++ Text.quoted name
  | .typeMismatch directive cause =>
    "#" ++ directive ++ " expects a " ++ cause.expected.describe ++ " value, got "
      ++ cause.foundText
  | .unknownChar name => "unknown character name " ++ Text.quoted name
  | .noLoader => "#import used but no module loader is configured"
  | .importFailed module cause => "cannot import " ++ Text.quoted module ++ ": " ++ cause.message
  | .recursionLimit name =>
    "evaluation of " ++ Text.quoted name ++ " nested more than " ++ toString maxActive
      ++ " levels deep"

/-- The reason in words.  A document speaks for itself. -/
def LoadError.message : LoadError → String
  | .unreadable path cause => "cannot read " ++ path ++ ": " ++ cause.message
  | .document cause => cause.message
  | .notFound name => "module not found: " ++ name

/-- The fault of a document in the words of the fault in it. -/
def DocumentFault.message : DocumentFault → String
  | .malformed cause => cause.message
  | .failed cause => cause.message

end

mutual

/-- The messages of the causes behind a fault, outermost first: what made an import fail, and the
    causes behind that. -/
def EvalError.causes : EvalError → List String
  | .importFailed _ cause => cause.message :: cause.causes
  | _ => []

/-- The messages of the causes behind a reason, outermost first.  A document stands for its fault,
    and so is no link of its own. -/
def LoadError.causes : LoadError → List String
  | .unreadable _ cause => [cause.message]
  | .document cause => cause.causes
  | .notFound _ => []

/-- The messages of the causes behind the fault of a document, outermost first. -/
def DocumentFault.causes : DocumentFault → List String
  | .malformed cause => cause.causes
  | .failed cause => cause.message :: cause.causes

end

/-! ## What a reader is told -/

/-- What made an import fail, in words, with the name of the module. -/
def EvalError.importFailure? : EvalError → Option (String × String)
  | importFailed module cause => some (module, cause.message)
  | _ => none

/-- Whether two faults tell a reader the same: failed imports are compared by the names of the
    modules and the words of what made them fail. -/
def EvalError.agrees (a b : EvalError) : Bool :=
  match a.importFailure?, b.importFailure? with
  | some x, some y => x = y
  | none, none => a = b
  | _, _ => false

end BraceMarkup
