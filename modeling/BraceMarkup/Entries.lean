/-
  Entries in the order of their names.

  A list of names and values in ascending order of the names, which are
  compared character by character.  No name occurs twice: a new entry takes
  the place of an old one with the same name.

  * `Entries`, `Entries.insert`, `Entries.insertAll`, `Entries.ofList`;
  * `Entries.Sorted`, `Entries.sorted_ofList`: the order, which all entries
    made by insertion have;
  * `Entries.lookup_insert`: what a name stands for after an insertion;
  * `Entries.mem_insertAll_iff`: what is among entries after others are added;
  * `Entries.LastNamed`, `Entries.mem_ofList_iff`: the entries of a list are the
    last ones with their names.
-/

namespace BraceMarkup

/-- Names and values, in ascending order of the names. -/
abbrev Entries (α : Type) := List (String × α)

namespace Entries

variable {α : Type}

/-- Adds an entry, in place of one with the same name. -/
def insert (name : String) (value : α) : Entries α → Entries α
  | [] => [(name, value)]
  | (key, old) :: rest =>
    if name = key then (name, value) :: rest
    else if name < key then (name, value) :: (key, old) :: rest
    else (key, old) :: insert name value rest

/-- Adds entries, first to last. -/
def insertAll (entries : Entries α) (more : List (String × α)) : Entries α :=
  more.foldl (fun entries entry => insert entry.1 entry.2 entries) entries

/-- The entries of a list, of which the last one with a name counts. -/
def ofList (entries : List (String × α)) : Entries α := insertAll [] entries

/-! ## Order -/

/-- Names in ascending order, none of them twice. -/
def Sorted (entries : Entries α) : Prop := entries.Pairwise fun a b => a.1 < b.1

/-- An insertion brings in nothing but its own entry. -/
theorem mem_insert {name : String} {value : α} {entries : Entries α} {entry : String × α}
    (h : entry ∈ insert name value entries) : entry = (name, value) ∨ entry ∈ entries := by
  induction entries with
  | nil => simpa [insert] using h
  | cons head rest ih =>
    obtain ⟨key, old⟩ := head
    simp only [insert] at h
    split at h
    · rcases List.mem_cons.1 h with h | h
      · exact Or.inl h
      · exact Or.inr (List.mem_cons_of_mem _ h)
    split at h
    · exact List.mem_cons.1 h
    · rcases List.mem_cons.1 h with h | h
      · exact Or.inr (by simp [h])
      · rcases ih h with h | h
        · exact Or.inl h
        · exact Or.inr (List.mem_cons_of_mem _ h)

/-- An insertion keeps the order. -/
theorem sorted_insert (name : String) (value : α) {entries : Entries α} (h : Sorted entries) :
    Sorted (insert name value entries) := by
  induction entries with
  | nil => simp [Sorted, insert]
  | cons head rest ih =>
    obtain ⟨key, old⟩ := head
    obtain ⟨hhead, hrest⟩ := List.pairwise_cons.1 h
    simp only [insert]
    split
    · next heq =>
      subst heq
      exact List.pairwise_cons.2 ⟨hhead, hrest⟩
    split
    · next hlt =>
      refine List.pairwise_cons.2 ⟨fun entry he => ?_, h⟩
      rcases List.mem_cons.1 he with rfl | he
      · exact hlt
      · exact String.lt_trans hlt (hhead entry he)
    · next hne hlt =>
      have hkey : key < name := by
        rcases Std.lt_trichotomy key name with h | h | h
        · exact h
        · exact absurd h.symm hne
        · exact absurd h hlt
      refine List.pairwise_cons.2 ⟨fun entry he => ?_, ih hrest⟩
      rcases mem_insert he with rfl | he
      · exact hkey
      · exact hhead entry he

theorem sorted_insertAll (more : List (String × α)) {entries : Entries α} (h : Sorted entries) :
    Sorted (insertAll entries more) := by
  induction more generalizing entries with
  | nil => exact h
  | cons entry more ih => exact ih (sorted_insert entry.1 entry.2 h)

/-- The entries of any list are in order. -/
theorem sorted_ofList (entries : List (String × α)) : Sorted (ofList entries) :=
  sorted_insertAll entries List.Pairwise.nil

/-! ## Looking up -/

theorem lookup_cons_eq (other name : String) (value : α) (rest : Entries α) :
    List.lookup other ((name, value) :: rest) =
      if other = name then some value else rest.lookup other := by
  by_cases h : other = name
  · simp [h]
  · simp [List.lookup_cons, beq_false_of_ne h, h]

/-- An insertion gives its name its value and leaves every other name alone. -/
theorem lookup_insert (name other : String) (value : α) (entries : Entries α) :
    (insert name value entries).lookup other =
      if other = name then some value else entries.lookup other := by
  induction entries with
  | nil => simp [insert, lookup_cons_eq]
  | cons entry rest ih =>
    obtain ⟨key, old⟩ := entry
    simp only [insert]
    split
    · next hk => subst hk; simp only [lookup_cons_eq]; split <;> rfl
    split
    · simp only [lookup_cons_eq]
    · next hk _ =>
      simp only [lookup_cons_eq, ih]
      by_cases ho : other = name
      · simp [ho, hk]
      · simp [ho]

/-! ## What is among entries -/

/-- Where no name occurs twice, an entry is what its name stands for. -/
theorem mem_iff_lookup {name : String} {value : α} {entries : Entries α} (h : Sorted entries) :
    (name, value) ∈ entries ↔ entries.lookup name = some value := by
  induction entries with
  | nil => simp
  | cons entry rest ih =>
    obtain ⟨key, old⟩ := entry
    obtain ⟨hhead, hrest⟩ := List.pairwise_cons.1 h
    rw [List.mem_cons, ih hrest, lookup_cons_eq]
    split
    · next heq =>
      subst heq
      have hnot : rest.lookup name ≠ some value := fun hl =>
        String.lt_irrefl name (hhead _ ((ih hrest).2 hl))
      simp [hnot, eq_comm]
    · next hne => simp [hne]

/-- An insertion replaces the entries with its name and keeps all others. -/
theorem mem_insert_iff {name : String} {value : α} {entries : Entries α} (h : Sorted entries)
    (entry : String × α) :
    entry ∈ insert name value entries ↔
      entry = (name, value) ∨ entry ∈ entries ∧ entry.1 ≠ name := by
  obtain ⟨key, found⟩ := entry
  rw [mem_iff_lookup (sorted_insert name value h), mem_iff_lookup h, lookup_insert]
  by_cases hkey : key = name
  · simp [hkey, eq_comm]
  · simp [hkey]

/-- Sorted entries that are added replace the entries with their names and keep all others. -/
theorem mem_insertAll_iff {more entries : Entries α} (hmore : Sorted more) (h : Sorted entries)
    (entry : String × α) :
    entry ∈ insertAll entries more ↔
      entry ∈ more ∨ entry ∈ entries ∧ entry.1 ∉ more.map Prod.fst := by
  induction more generalizing entries with
  | nil => simp [insertAll]
  | cons first rest ih =>
    obtain ⟨hfirst, hrest⟩ := List.pairwise_cons.1 hmore
    have hnot : first.1 ∉ rest.map Prod.fst := by
      intro hm
      obtain ⟨other, ho, heq⟩ := List.mem_map.1 hm
      exact String.lt_irrefl _ (heq ▸ hfirst other ho)
    have hinsert := ih hrest (sorted_insert first.1 first.2 h)
    rw [insertAll, List.foldl_cons, ← insertAll, hinsert, mem_insert_iff h]
    by_cases hentry : entry = first
    · subst hentry
      simp [hnot]
    · simp [hentry, and_assoc]

/-! ## Last entries -/

section
variable {entries : List (String × α)} {name : String} {value : α}

/-- The last entry with a name has a value. -/
def LastNamed (entries : List (String × α)) (name : String) (value : α) : Prop :=
  ∃ before after, entries = before ++ (name, value) :: after ∧ name ∉ after.map Prod.fst

/-- The last entry with a name is the one found first from behind. -/
theorem lastNamed_iff_lookup :
    LastNamed entries name value ↔ entries.reverse.lookup name = some value := by
  rw [List.lookup_eq_some_iff]
  constructor
  · rintro ⟨before, after, rfl, hafter⟩
    refine ⟨after.reverse, before.reverse, by simp, fun entry hm => bne_iff_ne.2 ?_⟩
    rintro rfl
    exact hafter (List.mem_map_of_mem (List.mem_reverse.1 hm))
  · rintro ⟨after, before, heq, hafter⟩
    refine ⟨before.reverse, after.reverse, by simpa using congrArg List.reverse heq, ?_⟩
    intro hm
    obtain ⟨entry, hentry, rfl⟩ := List.mem_map.1 hm
    exact bne_iff_ne.1 (hafter entry (List.mem_reverse.1 hentry)) rfl

theorem lookup_reverse_eq_none_iff :
    entries.reverse.lookup name = none ↔ name ∉ entries.map Prod.fst := by
  simp only [List.lookup_eq_none_iff, List.mem_reverse, bne_iff_ne, List.mem_map, not_exists,
    not_and, ne_eq, @eq_comm _ name]

/-- Of added entries the last one with a name counts, and where none has the name, what was there
    before. -/
theorem lookup_insertAll (entries : Entries α) (more : List (String × α)) (name : String) :
    (insertAll entries more).lookup name = (more.reverse.lookup name).or (entries.lookup name) := by
  induction more generalizing entries with
  | nil => rfl
  | cons entry rest ih =>
    rw [insertAll, List.foldl_cons, ← insertAll, ih, lookup_insert, List.reverse_cons,
      List.lookup_append, Option.or_assoc, lookup_cons_eq]
    split <;> rfl

/-- The entries of a list are the last ones with their names. -/
theorem mem_ofList_iff : (name, value) ∈ ofList entries ↔ LastNamed entries name value := by
  rw [mem_iff_lookup (sorted_ofList entries), ofList, lookup_insertAll, lastNamed_iff_lookup,
    List.lookup_nil, Option.or_none]

/-- Where no name occurs twice, every entry is the last with its name. -/
theorem lastNamed_iff_mem (h : Sorted entries) :
    LastNamed entries name value ↔ (name, value) ∈ entries := by
  constructor
  · rintro ⟨before, after, rfl, -⟩
    simp
  · intro hm
    obtain ⟨before, after, rfl⟩ := List.append_of_mem hm
    refine ⟨before, after, rfl, fun hname => ?_⟩
    obtain ⟨entry, hentry, rfl⟩ := List.mem_map.1 hname
    have hbehind := (List.pairwise_cons.1 (List.pairwise_append.1 h).2.1).1 entry hentry
    exact String.lt_irrefl _ hbehind

end

end Entries

end BraceMarkup
