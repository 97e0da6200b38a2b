/-
  The directives of templates.

  In a template, elements are directives.  Each has a name and takes a number
  of arguments; the element without a name refers to a variable or template.

  * `Directive`, `Directive.ofName?`, `Directive.arity`: the directives, the
    names they are written with and the arguments they take;
  * `namedChar?`: the characters that have a name.
-/
import BraceMarkup.Template.Error

namespace BraceMarkup

/-- What an element of a template does. -/
inductive Directive where
  /-- `#import{module}`: evaluates a module for the names it binds. -/
  | importModule
  /-- `#template{name}{body}`: binds a block that is not evaluated. -/
  | template
  /-- `#define{name}{value}`: binds a value. -/
  | define
  /-- `#extends{name}{overrides}`: evaluates some overrides and then a template. -/
  | extends
  /-- `#if{condition}{then}{otherwise}`, and `#unless` with its branches the other way round. -/
  | conditional (negated : Bool)
  /-- `#foreach{item}{list}{body}`: evaluates a body for every item of a list. -/
  | foreach
  /-- `#intersperse{list}{separator}`: joins the items of a list. -/
  | intersperse
  /-- `#char{name}`: a character by its name. -/
  | char
  /-- `#inline{body}`: evaluates a body less its line breaks. -/
  | inline
  /-- `#{name}`: what a name stands for. -/
  | reference
  deriving Repr, DecidableEq

/-- The directive that is written with a name. -/
def Directive.ofName? (name : String) : Option Directive :=
  match name with
  | "import" => some importModule
  | "template" => some template
  | "define" => some define
  | "extends" => some .extends
  | "if" => some (conditional false)
  | "unless" => some (conditional true)
  | "foreach" => some foreach
  | "intersperse" => some intersperse
  | "char" => some char
  | "inline" => some .inline
  | "" => some reference
  | _ => none

/-- How many arguments a directive takes. -/
def Directive.arity : Directive → Arity
  | importModule | char | .inline | reference => .exactly 1
  | template | define | intersperse => .exactly 2
  | foreach => .exactly 3
  | .extends => .orOneMore 1
  | conditional _ => .orOneMore 2

/-- The character that a name stands for. -/
def namedChar? (name : String) : Option Char :=
  match name with
  | "space" => some ' '
  | "tab" => some '\t'
  | "newline" => some '\n'
  | _ => none

end BraceMarkup
