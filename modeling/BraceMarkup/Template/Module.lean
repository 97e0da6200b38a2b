/-
  Modules: documents that other documents import.

  A loader finds a module by its name.  A module is the text of a document, to
  be evaluated for the names it binds, or directly values for names.

  * `Module`, `Loader`, `Unavailable`: the types;
  * `Loader.memory`, `Loader.files`: modules from a table, and from files below
    a directory.
-/
import BraceMarkup.Source
import BraceMarkup.FileSystem
import BraceMarkup.Template.Environment

namespace BraceMarkup

/-- What an import brings in. -/
inductive Module where
  /-- The text of a document. -/
  | document (source : String)
  /-- Names with their values. -/
  | bindings (values : List (String × Value))

/-- Why there is no module to be evaluated. -/
inductive Unavailable where
  | unreadable (path : String) (cause : FileError)
  | notFound (name : String)
  | malformed (cause : SourceError)
  deriving Repr, DecidableEq

/-- A way to find modules by their names. -/
structure Loader where
  load : String → Except Unavailable Module

/-- Finds modules in a table of names and texts. -/
def Loader.memory (modules : List (String × String)) : Loader where
  load name :=
    match modules.lookup name with
    | some source => .ok (.document source)
    | none => .error (.notFound name)

/-- Finds modules in the files below the directory at a path. -/
def Loader.files (read : FileReader) (root : String) : Loader where
  load name :=
    let path := joinPath root name
    match read.text path with
    | .ok source => .ok (.document source)
    | .error cause => .error (.unreadable path cause)

end BraceMarkup
