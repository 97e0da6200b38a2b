/-
  Paths below a directory.

  A path is followed name by name, so that the path of a file below a directory
  goes to the directory first.

  * `pathNames_append`: the names of two paths with a slash between them;
  * `IsFileName`: what can be the name of a file;
  * `FileSystem.find_joinPath`, `FileSystem.read_joinPath`: **a file is read by
    its name** below the path of the directory that holds it.
-/
import BraceMarkup.FileSystem
import BraceMarkup.Source
import Mathlib.Data.List.Basic

namespace BraceMarkup

/-! ## The names of a path -/

theorem pathNames_ne_nil (path : List Char) : pathNames path ≠ [] := by
  induction path with
  | nil => simp [pathNames]
  | cons c rest ih =>
    rw [pathNames, List.foldr_cons]
    split
    · simp
    · simp
    · simp

theorem pathNames_slash (path : List Char) : pathNames ('/' :: path) = [] :: pathNames path := rfl

theorem pathNames_cons {c : Char} (hc : c ≠ '/') (path : List Char) :
    ∃ name names, pathNames path = name :: names ∧
      pathNames (c :: path) = (c :: name) :: names := by
  obtain ⟨name, names, h⟩ := List.exists_cons_of_ne_nil (pathNames_ne_nil path)
  refine ⟨name, names, h, ?_⟩
  rw [pathNames, List.foldr_cons, ← pathNames, h]
  split
  · exact absurd rfl hc
  · next heq => cases heq; rfl
  · next heq => cases heq

/-- The names of two paths with a slash between them. -/
theorem pathNames_append (path below : List Char) :
    pathNames (path ++ '/' :: below) = pathNames path ++ pathNames below := by
  induction path with
  | nil => rfl
  | cons c rest ih =>
    by_cases hc : c = '/'
    · subst hc
      rw [List.cons_append, pathNames_slash, pathNames_slash, ih, List.cons_append]
    · obtain ⟨name, names, hrest, hnames⟩ := pathNames_cons hc rest
      obtain ⟨name', names', hrest', hnames'⟩ := pathNames_cons hc (rest ++ '/' :: below)
      rw [ih, hrest, List.cons_append] at hrest'
      cases hrest'
      rw [List.cons_append, hnames', hnames, List.cons_append]

/-- What can be the name of a file. -/
structure IsFileName (name : String) : Prop where
  not_idle : name.toList ≠ [] ∧ name.toList ≠ ['.'] ∧ name.toList ≠ ['.', '.']
  no_slash : '/' ∉ name.toList

/-- Without a slash there is one name. -/
theorem pathNames_of_no_slash {path : List Char} (h : '/' ∉ path) : pathNames path = [path] := by
  induction path with
  | nil => rfl
  | cons c rest ih =>
    rw [List.mem_cons, not_or] at h
    obtain ⟨name, names, hnames, heq⟩ := pathNames_cons (Ne.symm h.1) rest
    rw [ih h.2] at hnames
    cases hnames
    exact heq

theorem IsFileName.not_isAbsolute {name : String} (h : IsFileName name) :
    isAbsolute name = false := by
  cases hname : name.toList with
  | nil => exact absurd hname h.not_idle.1
  | cons c rest =>
    have hc : c ≠ '/' := fun heq => h.no_slash (by simp [hname, heq])
    simp [isAbsolute, hname, hc]

/-- The path of a file below a directory: the path of the directory, a slash where it does not end
    with one, and the name. -/
theorem joinPath_cases (root : String) {name : String} (h : IsFileName name) :
    root.toList = [] ∧ (joinPath root name).toList = name.toList ∨
      (∃ path, root.toList = path ++ ['/'] ∧
        (joinPath root name).toList = path ++ '/' :: name.toList) ∨
      root.toList ≠ [] ∧ (joinPath root name).toList = root.toList ++ '/' :: name.toList := by
  rw [joinPath, h.not_isAbsolute]
  by_cases hempty : root = ""
  · subst hempty
    exact .inl ⟨rfl, by simp⟩
  · have hne : root.toList ≠ [] := fun he => hempty (String.toList_inj.1 he)
    rw [if_neg (by simp [hempty])]
    split
    · next hlast =>
      obtain ⟨path, hpath⟩ := List.getLast?_eq_some_iff.1 hlast
      exact .inr (.inl ⟨path, hpath, by simp [hpath]⟩)
    · exact .inr (.inr ⟨hne, by simp⟩)

/-! ## Below a directory -/

namespace FileSystem

variable {s : FileSystem} {root name : String} {names : List String}

/-- The path of a file below a directory begins where the path of the directory does. -/
theorem origin_joinPath (s : FileSystem) (root : String) (hname : IsFileName name) :
    s.origin (joinPath root name) = s.origin root := by
  have h : isAbsolute (joinPath root name) = isAbsolute root := by
    rcases joinPath_cases root hname with ⟨hroot, hjoin⟩ | ⟨path, hroot, hjoin⟩ |
      ⟨hroot, hjoin⟩
    · have hn := hname.not_isAbsolute
      rw [isAbsolute] at hn ⊢
      rw [hjoin, hn, isAbsolute, hroot]
      rfl
    · rw [isAbsolute, isAbsolute, hjoin, hroot]
      cases path <;> rfl
    · rw [isAbsolute, isAbsolute, hjoin, List.head?_append_of_ne_nil _ hroot]
  rw [origin, origin, h]

/-- An empty name stays where it is. -/
theorem foldlM_follow_empty (path : List (List Char)) {place place' : Place}
    (h : (path ++ [[]]).foldlM s.follow place = .ok place') :
    path.foldlM s.follow place = .ok place' := by
  rw [List.foldlM_append, bind_eq_ok_iff] at h
  obtain ⟨place'', hpath, hlast⟩ := h
  rw [List.foldlM_cons, bind_eq_ok_iff] at hlast
  obtain ⟨_, hfollow, ⟨⟩⟩ := hlast
  cases place'' with
  | file names => cases hfollow
  | directory above =>
    cases hfollow
    exact hpath

/-- A path below a directory leads to the directory first. -/
theorem foldlM_joinPath (hname : IsFileName name)
    (hroot : (pathNames root.toList).foldlM s.follow (s.origin root) = .ok (.directory names)) :
    (pathNames (joinPath root name).toList).foldlM s.follow (s.origin root) =
      s.follow (.directory names) name.toList := by
  have hlast := pathNames_of_no_slash hname.no_slash
  have hthen : ∀ path,
      (pathNames path).foldlM s.follow (s.origin root) = .ok (.directory names) →
      (pathNames (path ++ '/' :: name.toList)).foldlM s.follow (s.origin root) =
        s.follow (.directory names) name.toList := by
    intro path hpath
    rw [pathNames_append, hlast, List.foldlM_append, hpath]
    exact bind_pure (s.follow (.directory names) name.toList)
  rcases joinPath_cases root hname with ⟨hempty, hjoin⟩ | ⟨path, hslash, hjoin⟩ |
    ⟨-, hjoin⟩
  · rw [hempty] at hroot
    have hplace : s.origin root = .directory names := by
      exact Except.ok.inj (foldlM_follow_empty [] hroot)
    rw [hjoin, hlast, hplace]
    exact bind_pure (s.follow (.directory names) name.toList)
  · rw [hslash, pathNames_append] at hroot
    rw [hjoin]
    exact hthen path (foldlM_follow_empty _ hroot)
  · rw [hjoin]
    exact hthen _ hroot

/-- A name that is neither empty nor made of dots leads where it is looked up. -/
theorem follow_directory {name : List Char} (hname : name ≠ [] ∧ name ≠ ['.'] ∧ name ≠ ['.', '.']) :
    s.follow (.directory names) name =
      match s.below? names (String.ofList name) with
      | some inner => .ok inner
      | none =>
        .error (if 255 < (String.ofList name).utf8ByteSize then .nameTooLong else .notFound) := by
  obtain ⟨hempty, hdot, hdots⟩ := hname
  have hidle : ¬ (name.isEmpty ∨ name = ['.']) := by simp [hempty, hdot]
  exact (if_neg hidle).trans (if_neg hdots)

theorem below?_file (hfile : (s.content? (name :: names).reverse).isSome) :
    s.below? names name = some (.file (name :: names).reverse) := if_pos hfile

/-- A file is found by its name below the path of the directory that holds it. -/
theorem find_joinPath (hname : IsFileName name)
    (hroot : (pathNames root.toList).foldlM s.follow (s.origin root) = .ok (.directory names))
    (hpath : pathFault? (joinPath root name) = none)
    (hfile : (s.content? (name :: names).reverse).isSome) :
    s.find (joinPath root name) = .ok (.file (name :: names).reverse) := by
  rw [find, hpath, origin_joinPath s root hname]
  dsimp only
  rw [foldlM_joinPath hname hroot, follow_directory hname.not_idle, String.ofList_toList,
    below?_file hfile]

/-- **A file is read by its name** below the path of the directory that holds it, unless the system
    denies that. -/
theorem read_joinPath {bytes : ByteArray} (hname : IsFileName name)
    (hroot : (pathNames root.toList).foldlM s.follow (s.origin root) = .ok (.directory names))
    (hpath : pathFault? (joinPath root name) = none)
    (hfile : s.content? (name :: names).reverse = some bytes)
    (hpermit : s.denial? .read (name :: names).reverse = none) :
    s.read (joinPath root name) = .ok bytes := by
  have hfind := find_joinPath hname hroot hpath (hfile ▸ rfl)
  rw [read, bind_eq_ok_iff]
  refine ⟨_, hfind, ?_⟩
  simp only [permit, hpermit, hfile]
  rfl

end FileSystem

end BraceMarkup
