/-
  Removal of line breaks.

  A line break is taken out together with the spaces before it and the ASCII
  blank characters after it; everything else stays, runs of spaces that no
  line feed follows included.

  * `removeBreaksList`, `removeBreaks`: a text less its line breaks;
  * `not_mem_removeBreaksList`, `removeBreaksList_of_not_mem`: no line feed is
    left, and a text without one stays as it is;
  * `removeBreaksList_sublist`, `isBlankText_removeBreaks`: nothing is added, so
    that a blank text stays blank;
  * `removeBreaks_removeBreaks`: a second removal changes nothing.
-/
import BraceMarkup.Text.Blank

namespace BraceMarkup.Text

/-- A list of characters less its line breaks.  The spaces at the front go if a line feed follows
    them, and stay otherwise. -/
def removeBreaksList (cs : List Char) : List Char :=
  match _h : cs.dropWhile (· == ' ') with
  | [] => cs
  | '\n' :: rest => removeBreaksList (rest.dropWhile isAsciiBlank)
  | c :: rest => cs.takeWhile (· == ' ') ++ c :: removeBreaksList rest
termination_by cs.length
decreasing_by
  all_goals
    have hle := (List.dropWhile_sublist (l := cs) (· == ' ')).length_le
    simp only [_h, List.length_cons] at hle
  · have := (List.dropWhile_sublist (l := rest) isAsciiBlank).length_le
    omega
  · omega

/-- A text less its line breaks, the spaces before them and the blank characters after them. -/
def removeBreaks (s : String) : String := String.ofList (removeBreaksList s.toList)

/-- No line feed is left. -/
theorem not_mem_removeBreaksList (cs : List Char) : '\n' ∉ removeBreaksList cs := by
  have hspaces : ∀ cs : List Char, '\n' ∉ cs.takeWhile (· == ' ') := fun cs hm =>
    absurd (List.all_eq_true.1 List.all_takeWhile _ hm) (by decide)
  fun_induction removeBreaksList cs with
  | case1 cs h =>
    have hcs := List.takeWhile_append_dropWhile (p := (· == ' ')) (l := cs)
    rw [h, List.append_nil] at hcs
    exact hcs ▸ hspaces cs
  | case2 cs rest h ih => exact ih
  | case3 cs c rest hc h ih =>
    intro hm
    rcases List.mem_append.1 hm with hm | hm
    · exact hspaces cs hm
    · rcases List.mem_cons.1 hm with rfl | hm
      · exact hc rfl
      · exact ih hm

/-- A list without a line feed stays as it is. -/
theorem removeBreaksList_of_not_mem {cs : List Char} (h : '\n' ∉ cs) :
    removeBreaksList cs = cs := by
  fun_induction removeBreaksList cs with
  | case1 cs _ => rfl
  | case2 cs rest hd _ =>
    have hm : '\n' ∈ cs.dropWhile (· == ' ') := hd ▸ List.mem_cons_self
    exact absurd ((List.dropWhile_sublist _).mem hm) h
  | case3 cs c rest _ hd ih =>
    have hrest : '\n' ∉ rest := fun hm =>
      h ((List.dropWhile_sublist (· == ' ')).mem (hd ▸ List.mem_cons_of_mem _ hm))
    rw [ih hrest, ← hd, List.takeWhile_append_dropWhile]

/-- What is left is part of the list. -/
theorem removeBreaksList_sublist (cs : List Char) : (removeBreaksList cs).Sublist cs := by
  fun_induction removeBreaksList cs with
  | case1 cs h => exact List.Sublist.refl cs
  | case2 cs rest h ih =>
    have hrest : rest.Sublist cs := (List.sublist_cons_self '\n' rest).trans
      (h ▸ List.dropWhile_sublist _)
    exact (ih.trans (List.dropWhile_sublist _)).trans hrest
  | case3 cs c rest hc h ih =>
    have hrest : (c :: removeBreaksList rest).Sublist (cs.dropWhile (· == ' ')) :=
      h ▸ ih.cons_cons c
    have hcs := (List.Sublist.refl (cs.takeWhile (· == ' '))).append hrest
    rwa [List.takeWhile_append_dropWhile] at hcs

/-- A text without a line feed stays as it is. -/
theorem removeBreaks_of_not_mem {s : String} (h : '\n' ∉ s.toList) : removeBreaks s = s := by
  rw [removeBreaks, removeBreaksList_of_not_mem h, String.ofList_toList]

/-- What is left of a blank text is blank. -/
theorem isBlankText_removeBreaks {s : String} (h : isBlankText s = true) :
    isBlankText (removeBreaks s) = true := by
  rw [isBlankText, removeBreaks, String.toList_ofList, List.all_eq_true]
  exact fun c hc => List.all_eq_true.1 h c ((removeBreaksList_sublist _).mem hc)

/-- A second removal changes nothing. -/
@[simp] theorem removeBreaks_removeBreaks (s : String) :
    removeBreaks (removeBreaks s) = removeBreaks s := by
  unfold removeBreaks
  rw [String.toList_ofList, removeBreaksList_of_not_mem (not_mem_removeBreaksList _)]

end BraceMarkup.Text
