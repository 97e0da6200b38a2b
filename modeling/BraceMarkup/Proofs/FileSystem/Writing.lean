/-
  Writing a file.

  A file is written as a whole: its path leads to the new content afterwards,
  and every other file is as it was.  The directories that the path goes
  through stay what they are, because what is written is none of them.

  * `FileSystem.content?_put`: the files after one has been replaced or added;
  * `FileSystem.IsFree`: names that lead to no directory;
  * `FileSystem.foldlM_follow_put`: paths that lead to a directory still do;
  * `FileSystem.target_eq_ok`: a path to which a file can be written;
  * `FileSystem.Written`: all that has changed when a file has been written;
  * `FileSystem.written_of_write`: **a file is written whole, and nothing else
    is**.
-/
import BraceMarkup.Proofs.FileSystem.Paths

namespace BraceMarkup

namespace FileSystem

variable {s : FileSystem} {bytes : ByteArray} {names target other : List String}

/-! ## Replacing or adding a file -/

/-- Files after the content of one has been replaced. -/
theorem lookup_replace (files : List (List String × ByteArray)) :
    (files.map fun file => if file.1 = target then (target, bytes) else file).lookup other =
      (files.lookup other).map fun content => if other = target then bytes else content := by
  induction files with
  | nil => rfl
  | cons file rest ih =>
    obtain ⟨names, content⟩ := file
    have hhead : (if names = target then (target, bytes) else (names, content)) =
        (names, if names = target then bytes else content) := by
      split
      · next h => rw [h]
      · rfl
    rw [List.map_cons, hhead, List.lookup_cons, List.lookup_cons, ih]
    by_cases hother : other = names
    · rw [hother, beq_self_eq_true]
      rfl
    · rw [beq_false_of_ne hother]

/-- The files after one has been replaced or added. -/
theorem content?_put : (s.put target bytes).content? other =
    if other = target then some bytes else s.content? other := by
  unfold put
  split
  · next hsome =>
    rw [content?, lookup_replace, ← content?]
    by_cases hother : other = target
    · subst hother
      obtain ⟨content, hcontent⟩ := Option.isSome_iff_exists.1 hsome
      rw [hcontent, if_pos rfl, Option.map_some, if_pos rfl]
    · simp only [if_neg hother, Option.map_id_fun']
      rfl
  · next hnone =>
    rw [Bool.not_eq_true, Option.isSome_eq_false_iff, Option.isNone_iff_eq_none] at hnone
    rw [content?, List.lookup_append, ← content?, List.lookup_cons]
    by_cases hother : other = target
    · subst hother
      rw [hnone, Option.none_or, beq_self_eq_true, if_pos rfl]
    · rw [beq_false_of_ne hother, if_neg hother]
      exact Option.or_none

/-- Writing a file changes nothing but the files. -/
theorem put_eq (s : FileSystem) (target : List String) (bytes : ByteArray) :
    s.put target bytes = { s with files := (s.put target bytes).files } := by
  unfold put
  split <;> rfl

/-! ## Paths -/

/-- The names lead to no directory: to a file, or nowhere. -/
def IsFree (s : FileSystem) (names : List String) : Prop :=
  (s.content? names).isSome ∨ s.hasDirectory names = false

/-- Writing a file takes no directory away. -/
theorem hasDirectory_put (h : s.hasDirectory names) : (s.put target bytes).hasDirectory names := by
  rw [put_eq]
  simp only [hasDirectory, Bool.or_eq_true, List.any_eq_true] at h ⊢
  refine h.imp id fun ⟨file, hfile, hbelow⟩ => ?_
  unfold put
  split
  · refine ⟨_, List.mem_map_of_mem hfile, ?_⟩
    split
    · next htarget => exact htarget ▸ hbelow
    · exact hbelow
  · exact ⟨file, List.mem_append_left _ hfile, hbelow⟩

/-- A name that leads to a directory still does when a file has been written. -/
theorem below?_put {inner : Place} {name : String} (hfree : s.IsFree target)
    (h : s.below? names name = some inner) (hinner : inner.isDirectory) :
    (s.put target bytes).below? names name = some inner := by
  simp only [below?] at h ⊢
  split at h
  · cases h
    cases hinner
  next hfile =>
  split at h
  · next hdirectory =>
    have hother : (name :: names).reverse ≠ target := by
      rintro rfl
      rcases hfree with hsome | hnone
      · exact hfile hsome
      · cases hnone.symm.trans hdirectory
    rw [content?_put, if_neg hother, if_neg hfile, if_pos (hasDirectory_put hdirectory)]
    exact h
  · cases h

theorem follow_put {place inner : Place} {name : List Char} (hfree : s.IsFree target)
    (h : s.follow place name = .ok inner) (hinner : inner.isDirectory) :
    (s.put target bytes).follow place name = .ok inner := by
  cases place with
  | file names => cases h
  | directory names =>
    unfold follow at h ⊢
    dsimp only at h ⊢
    split at h
    · next hidle => rwa [if_pos hidle]
    next hidle =>
    rw [if_neg hidle]
    split at h
    · next hdots => rwa [if_pos hdots]
    next hdots =>
    rw [if_neg hdots]
    cases hbelow : s.below? names (String.ofList name) with
    | none => simp [hbelow] at h
    | some inner' =>
      simp only [hbelow, Except.ok.injEq] at h
      subst h
      simp only [below?_put hfree hbelow hinner]

/-- Names lead on from directories only. -/
theorem isDirectory_of_follow {place inner : Place} {name : List Char}
    (h : s.follow place name = .ok inner) : place.isDirectory := by
  cases place with
  | directory above => rfl
  | file names => cases h

/-- A path that leads to a directory still does when a file has been written. -/
theorem foldlM_follow_put {path : List (List Char)} {place last : Place} (hfree : s.IsFree target)
    (h : path.foldlM s.follow place = .ok last) (hlast : last.isDirectory) :
    path.foldlM (s.put target bytes).follow place = .ok last := by
  induction path generalizing place with
  | nil => exact h
  | cons name rest ih =>
    rw [List.foldlM_cons, bind_eq_ok_iff] at h
    obtain ⟨inner, hfollow, hrest⟩ := h
    have hinner : inner.isDirectory := by
      cases rest with
      | nil =>
        cases hrest
        exact hlast
      | cons name' rest' =>
        rw [List.foldlM_cons, bind_eq_ok_iff] at hrest
        obtain ⟨_, hfollow', -⟩ := hrest
        exact isDirectory_of_follow hfollow'
    rw [List.foldlM_cons, bind_eq_ok_iff]
    exact ⟨inner, follow_put hfree hfollow hinner, ih hrest⟩

/-! ## Writing -/

/-- All that has changed when a file has been written: the path leads to it and its content is
    `bytes`.  Every other file is as it was, and so is everything else. -/
structure Written (s : FileSystem) (path : String) (bytes : ByteArray) (after : FileSystem) :
    Prop where
  file : ∃ names, after.find path = .ok (.file names) ∧ after.content? names = some bytes ∧
    ∀ other, other ≠ names → after.content? other = s.content? other
  rest : after = { s with files := after.files }

/-- A written file is read back, unless the system denies that. -/
theorem Written.read {path : String} {after : FileSystem} (h : s.Written path bytes after)
    (hpermit : ∀ names, s.denial? .read names = none) : after.read path = .ok bytes := by
  obtain ⟨⟨names, hfind, hcontent, -⟩, hrest⟩ := h
  have hpermit' : after.denial? .read names = none := by
    rw [hrest]
    exact hpermit names
  rw [FileSystem.read, bind_eq_ok_iff]
  refine ⟨_, hfind, ?_⟩
  simp only [permit, hpermit', hcontent]
  rfl

/-- A path whose last name is not empty ends with that name. -/
theorem eq_append_of_dropWhile {path above : List (List Char)} {last : List Char}
    (h : path.reverse.dropWhile List.isEmpty = last :: above) (hlast : path.getLast? ≠ some []) :
    path = above.reverse ++ [last] ∧ last ≠ [] := by
  rw [← List.head?_reverse] at hlast
  cases hpath : path.reverse with
  | nil => simp [hpath] at h
  | cons name rest =>
    have hname : name ≠ [] := by simpa [hpath] using hlast
    rw [hpath, List.dropWhile_cons_of_neg (by simpa using hname)] at h
    cases h
    exact ⟨by rw [← List.reverse_reverse path, hpath, List.reverse_cons], hname⟩

/-- **A path to which a file can be written** goes through directories up to its last name, which is
    that of a file there or of nothing. -/
theorem target_eq_ok {path : String} (h : s.target path = .ok target) :
    ∃ above last names, pathFault? path = none ∧ pathNames path.toList = above ++ [last] ∧
      (last ≠ [] ∧ last ≠ ['.'] ∧ last ≠ ['.', '.']) ∧
      above.foldlM s.follow (s.origin path) = .ok (.directory names) ∧
      target = (String.ofList last :: names).reverse ∧ s.IsFree target := by
  unfold FileSystem.target at h
  cases hfault : pathFault? path with
  | some e =>
    rw [hfault] at h
    cases h
  | none =>
  rw [hfault] at h
  dsimp only at h
  split at h
  · cases h
  next last above hnames =>
  rw [bind_eq_ok_iff] at h
  obtain ⟨place, hplace, h⟩ := h
  cases place with
  | file names => cases h
  | directory names =>
  dsimp only at h
  split at h
  · cases h
  next hlast =>
  simp only [not_or] at hlast
  obtain ⟨hpath, hempty⟩ := eq_append_of_dropWhile hnames hlast.1
  have hname : last ≠ [] ∧ last ≠ ['.'] ∧ last ≠ ['.', '.'] := ⟨hempty, hlast.2⟩
  refine ⟨above.reverse, last, names, rfl, hpath, hname, hplace, ?_⟩
  rw [follow_directory hname] at h
  by_cases hfile : (s.content? (String.ofList last :: names).reverse).isSome
  · rw [below?_file hfile] at h
    cases h
    exact ⟨rfl, .inl hfile⟩
  by_cases hbelow : s.hasDirectory (String.ofList last :: names).reverse
  · rw [below?, if_neg hfile, if_pos hbelow] at h
    cases h
  · rw [below?, if_neg hfile, if_neg hbelow] at h
    by_cases hlong : 255 < (String.ofList last).utf8ByteSize
    · rw [if_pos hlong] at h
      cases h
    · rw [if_neg hlong] at h
      cases h
      exact ⟨rfl, .inr (by simpa using hbelow)⟩

/-- **A file is written whole, and nothing else is.** -/
theorem written_of_write {path : String} {after : FileSystem} (h : s.write path bytes = .ok after) :
    s.Written path bytes after := by
  rw [write, bind_eq_ok_iff] at h
  obtain ⟨target, htarget, h⟩ := h
  rw [bind_eq_ok_iff] at h
  obtain ⟨_, -, ⟨⟩⟩ := h
  obtain ⟨above, last, names, hfault, hpath, hname, hplace, rfl, hfree⟩ := target_eq_ok htarget
  refine ⟨⟨_, ?_, by rw [content?_put, if_pos rfl], fun other hother => by
    rw [content?_put, if_neg hother]⟩, put_eq _ _ _⟩
  -- the directories on the way are the same, and the last name leads to the new file
  have hlast : (s.put (String.ofList last :: names).reverse bytes).follow (.directory names) last =
      .ok (.file (String.ofList last :: names).reverse) := by
    rw [follow_directory hname, below?_file (by rw [content?_put, if_pos rfl]; rfl)]
  have horigin :
      (s.put (String.ofList last :: names).reverse bytes).origin path = s.origin path := by
    rw [put_eq]
    rfl
  rw [find, hfault, hpath, List.foldlM_append, horigin]
  refine bind_eq_ok_iff.2 ⟨_, foldlM_follow_put hfree hplace rfl, ?_⟩
  rw [List.foldlM_cons, hlast]
  rfl

end FileSystem

end BraceMarkup
