/-
  Files, and the paths that lead to them.

  A `FileSystem` lists its files by the names that lead to them from the root.
  The directories are those that these names go through, the one in which the
  command runs and those above it, and any others it lists.  There are no links
  and no devices.  A path is a sequence of names between slashes.  It is
  followed one name at a time, from the root if it begins with a slash and
  otherwise from the directory in which the command runs: `.` and an empty name
  stay where they are, `..` goes up, and any other name goes down.  A name
  behind a file leads nowhere.

  * `FileError`: why a file could not be read or written;
  * `Place`, `FileSystem.find`: where a path leads;
  * `FileSystem.read`, `FileSystem.write`: the content of the file at a path,
    and the file system with other content there;
  * `FileReader`, `FileReader.text`: a way to read files, and their content as
    text;
  * `joinPath`, `parentPath?`: a path below another, and the path of the
    directory that holds a file.
-/

namespace BraceMarkup

/-- Why a file could not be read or written. -/
inductive FileError where
  | notFound
  | notADirectory
  | isADirectory
  | nameTooLong
  | nullInPath
  | invalidText
  /-- Any other reason that a system gives. -/
  | other (reason : String)
  deriving Repr, DecidableEq

/-- The reason in words. -/
def FileError.message : FileError → String
  | notFound => "No such file or directory (os error 2)"
  | notADirectory => "Not a directory (os error 20)"
  | isADirectory => "Is a directory (os error 21)"
  | nameTooLong => "File name too long (os error 36)"
  | nullInPath => "file name contained an unexpected NUL byte"
  | invalidText => "stream did not contain valid UTF-8"
  | other reason => reason

/-! ## Paths -/

/-- The names of a path, in order: what stands before, between and behind its slashes. -/
def pathNames (path : List Char) : List (List Char) :=
  path.foldr
    (fun c names =>
      match c, names with
      | '/', names => [] :: names
      | c, name :: names => (c :: name) :: names
      | c, [] => [[c]])
    [[]]

/-- A path that begins with a slash. -/
def isAbsolute (path : String) : Bool := path.toList.head? = some '/'

/-- The path that leads from `root` to `path`; an absolute path stays as it is. -/
def joinPath (root path : String) : String :=
  if isAbsolute path ∨ root.isEmpty then path
  else if root.toList.getLast? = some '/' then root ++ path
  else root ++ "/" ++ path

/-- Takes off the names at the end of a path that leave it where it is: empty ones, and every `.`
    but one that begins the path.  The names are listed last first. -/
def dropIdleNames : List (List Char) → List (List Char)
  | [] => []
  | name :: earlier =>
    if name.isEmpty ∨ (name = ['.'] ∧ earlier ≠ []) then dropIdleNames earlier
    else name :: earlier

/-- The path of the directory that holds what a path leads to: the path less its last name.  There
    is none if the path has no names. -/
def parentPath? (path : String) : Option String :=
  match dropIdleNames (pathNames path.toList).reverse with
  | [] => none
  | _ :: earlier =>
    let kept := (dropIdleNames earlier).reverse
    if isAbsolute path ∧ kept.isEmpty then some "/"
    else some (String.ofList (List.intercalate ['/'] kept))

/-! ## File systems -/

/-- What the system may be asked for. -/
inductive Access where
  | read
  | write
  deriving Repr, DecidableEq

/-- Files and directories, all with the names that lead to them from the root. -/
structure FileSystem where
  files : List (List String × ByteArray)
  /-- The directory in which the command runs. -/
  working : List String
  /-- Further directories. -/
  folders : List (List String) := []
  /-- Why the system denies access to a file, if it does. -/
  denial? : Access → List String → Option FileError := fun _ _ => none

/-- Where a path leads. -/
inductive Place where
  /-- A directory, by the names that lead to it; the last name comes first. -/
  | directory (names : List String)
  /-- A file, or where there may be one, by the names that lead to it. -/
  | file (names : List String)
  deriving Repr, DecidableEq

/-- Whether names can lead on from a place. -/
def Place.isDirectory : Place → Bool
  | directory _ => true
  | file _ => false

/-- The directory that holds a directory; the root holds itself. -/
def Place.parent : Place → Place
  | directory names => directory names.tail
  | file names => file names

namespace FileSystem

/-- Where a path begins. -/
def origin (s : FileSystem) (path : String) : Place :=
  .directory (if isAbsolute path then [] else s.working.reverse)

/-- The content of the file that some names lead to. -/
def content? (s : FileSystem) (names : List String) : Option ByteArray :=
  s.files.lookup names

/-- Whether names lead to a directory: to one that is listed, or above one, or above a file. -/
def hasDirectory (s : FileSystem) (names : List String) : Bool :=
  (s.working :: s.folders).any names.isPrefixOf ||
    s.files.any fun file => names.isPrefixOf file.1 && names.length < file.1.length

/-- What a name stands for in a directory. -/
def below? (s : FileSystem) (above : List String) (name : String) : Option Place :=
  let names := (name :: above).reverse
  if (s.content? names).isSome then some (.file names)
  else if s.hasDirectory names then some (.directory (name :: above))
  else none

/-- Follows one name. -/
def follow (s : FileSystem) (place : Place) (name : List Char) : Except FileError Place :=
  match place with
  | .file _ => .error .notADirectory
  | .directory above =>
    if name.isEmpty ∨ name = ['.'] then .ok place
    else if name = ['.', '.'] then .ok place.parent
    else
      match s.below? above (String.ofList name) with
      | some inner => .ok inner
      | none =>
        .error (if 255 < (String.ofList name).utf8ByteSize then .nameTooLong else .notFound)

/-- The fault of a path that leads nowhere, whatever there is. -/
def pathFault? (path : String) : Option FileError :=
  if path.toList.contains '\x00' then some .nullInPath
  else if path.isEmpty then some .notFound
  else if 4096 ≤ path.utf8ByteSize then some .nameTooLong
  else none

/-- Where a path leads. -/
def find (s : FileSystem) (path : String) : Except FileError Place :=
  match pathFault? path with
  | some e => .error e
  | none => (pathNames path.toList).foldlM s.follow (s.origin path)

/-- Fails if the system denies access to a file. -/
def permit (s : FileSystem) (access : Access) (names : List String) : Except FileError Unit :=
  match s.denial? access names with
  | some e => .error e
  | none => .ok ()

/-- The content of the file at a path. -/
def read (s : FileSystem) (path : String) : Except FileError ByteArray := do
  match ← s.find path with
  | .directory _ => throw .isADirectory
  | .file names =>
    s.permit .read names
    match s.content? names with
    | some bytes => return bytes
    | none => throw .notFound

/-- The file system with the file that some names lead to replaced or added. -/
def put (s : FileSystem) (names : List String) (bytes : ByteArray) : FileSystem :=
  if (s.content? names).isSome then
    { s with files := s.files.map fun file => if file.1 = names then (names, bytes) else file }
  else { s with files := s.files ++ [(names, bytes)] }

/-- Where a file is to be written: its path leads to a file, or to nothing in a directory. -/
def target (s : FileSystem) (path : String) : Except FileError (List String) := do
  if let some e := pathFault? path then throw e
  let names := pathNames path.toList
  match names.reverse.dropWhile List.isEmpty with
  | [] => throw .isADirectory
  | last :: above =>
    match ← above.reverse.foldlM s.follow (s.origin path) with
    | .file _ => throw .notADirectory
    | .directory above =>
      if names.getLast? = some [] ∨ last = ['.'] ∨ last = ['.', '.'] then throw .isADirectory
      match s.follow (.directory above) last with
      | .ok (.file names) => return names
      | .ok (.directory _) => throw .isADirectory
      | .error .notFound => return (String.ofList last :: above).reverse
      | .error e => throw e

/-- The file system with new content in the file at a path.  The file may be new, but not the
    directory that holds it. -/
def write (s : FileSystem) (path : String) (bytes : ByteArray) : Except FileError FileSystem := do
  let names ← s.target path
  s.permit .write names
  return s.put names bytes

end FileSystem

/-! ## Reading files as text -/

/-- A way to read the content of the file at a path. -/
abbrev FileReader := String → Except FileError ByteArray

/-- The content of the file at a path as text. -/
def FileReader.text (read : FileReader) (path : String) : Except FileError String := do
  match String.fromUTF8? (← read path) with
  | some s => return s
  | none => throw .invalidText

end BraceMarkup
