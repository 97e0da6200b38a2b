/-
  What the removal of line breaks takes out.

  A line break, with what goes with it, is any number of spaces, a line feed and
  any number of ASCII blank characters.  Of a text the leftmost of these goes,
  as long as it can be, and then those behind it in the same way; everything
  else stays.

  * `IsLineBreak`, `BreakBegins`: what goes, and where such a piece begins;
  * `FirstBreak`: the leftmost one, and the longest that begins there;
    `FirstBreak.unique`: there is only one;
  * `LessBreaks`: a text and what is left of it; `lessBreaks_iff`: that is what
    the removal yields;
  * `breakPass?`, `breakLoop?`: the removal by offsets, where every character is
    read at one; `breakLoop?_eq`: no read fails, and the result is the same;
  * `removeBreaks_leftmost_longest`: **the leftmost longest line breaks are
    removed, and nothing else**.
-/
import BraceMarkup.Proofs.Token.Offsets
import BraceMarkup.Proofs.Token.Reading
import BraceMarkup.Text.LineBreaks

namespace BraceMarkup.Text

/-! ## Line breaks -/

/-- Any number of spaces, a line feed, and any number of ASCII blank characters. -/
def IsLineBreak (m : List Char) : Prop :=
  ∃ spaces blank, m = List.replicate spaces ' ' ++ '\n' :: blank ∧
    ∀ c ∈ blank, isAsciiBlank c = true

/-- A line break begins at the front of the list. -/
def BreakBegins (cs : List Char) : Prop := ∃ m, IsLineBreak m ∧ m <+: cs

/-- The leftmost line break of a list, and the longest one that begins there. -/
structure FirstBreak (cs before m after : List Char) : Prop where
  eq : cs = before ++ (m ++ after)
  isLineBreak : IsLineBreak m
  leftmost : ∀ tail, tail <:+ cs → BreakBegins tail → tail.length ≤ (m ++ after).length
  longest : ∀ longer, IsLineBreak longer → longer <+: m ++ after → longer.length ≤ m.length

/-- A list, and what is left of it: all of it if no line break begins anywhere, or else what stands
    before the first line break and what is left of the list behind it. -/
inductive LessBreaks : List Char → List Char → Prop
  | unbroken {cs : List Char} : (∀ tail, tail <:+ cs → ¬ BreakBegins tail) → LessBreaks cs cs
  | cut {cs before m after out : List Char} : FirstBreak cs before m after →
      LessBreaks after out → LessBreaks cs (before ++ out)

section
variable {c : Char} {cs rest before m after out : List Char}

/-- The spaces at the front of a list. -/
theorem takeWhile_spaces (cs : List Char) :
    cs.takeWhile (· == ' ') = List.replicate (cs.takeWhile (· == ' ')).length ' ' :=
  List.eq_replicate_of_mem fun c hc =>
    beq_iff_eq.1 (List.all_eq_true.1 (List.all_takeWhile (p := (· == ' '))) c hc)

theorem dropWhile_spaces (n : Nat) (rest : List Char) :
    (List.replicate n ' ' ++ '\n' :: rest).dropWhile (· == ' ') = '\n' :: rest := by
  rw [List.dropWhile_append_of_pos (by simp), List.dropWhile_cons_of_neg (by decide)]

/-- A line break begins where a line feed follows the spaces. -/
theorem breakBegins_iff :
    BreakBegins cs ↔ ∃ rest, cs.dropWhile (· == ' ') = '\n' :: rest := by
  constructor
  · rintro ⟨_, ⟨spaces, blank, rfl, -⟩, rest, rfl⟩
    exact ⟨blank ++ rest, by rw [List.append_assoc, List.cons_append, dropWhile_spaces]⟩
  · rintro ⟨rest, hrest⟩
    refine ⟨cs.takeWhile (· == ' ') ++ ['\n'], ⟨(cs.takeWhile (· == ' ')).length, [],
      ?_, nofun⟩, rest, ?_⟩
    · rw [← takeWhile_spaces]
    · rw [List.append_assoc, List.singleton_append, ← hrest, List.takeWhile_append_dropWhile]

theorem BreakBegins.mem (h : BreakBegins cs) : '\n' ∈ cs := by
  obtain ⟨rest, hrest⟩ := breakBegins_iff.1 h
  exact (List.dropWhile_sublist _).mem (hrest ▸ List.mem_cons_self)

/-- The longest line break at the front of a list. -/
theorem firstBreak_of_dropWhile (h : cs.dropWhile (· == ' ') = '\n' :: rest) :
    FirstBreak cs [] (cs.takeWhile (· == ' ') ++ '\n' :: rest.takeWhile isAsciiBlank)
      (rest.dropWhile isAsciiBlank) := by
  have hcs : cs.takeWhile (· == ' ') ++ '\n' :: rest.takeWhile isAsciiBlank ++
      rest.dropWhile isAsciiBlank = cs := by
    rw [List.append_assoc, List.cons_append, List.takeWhile_append_dropWhile, ← h,
      List.takeWhile_append_dropWhile]
  refine ⟨hcs.symm, ⟨(cs.takeWhile (· == ' ')).length, rest.takeWhile isAsciiBlank, ?_, ?_⟩, ?_, ?_⟩
  · rw [← takeWhile_spaces]
  · exact fun c hc => List.all_eq_true.1 List.all_takeWhile c hc
  · intro tail htail _
    rw [hcs]
    exact htail.length_le
  · rintro _ ⟨spaces, blank, rfl, hblank⟩ hprefix
    rw [hcs] at hprefix
    obtain ⟨later, rfl⟩ := hprefix
    rw [List.append_assoc, List.cons_append, dropWhile_spaces] at h
    obtain rfl := (List.cons.inj h).2
    have hspaces : (List.replicate spaces ' ' ++ '\n' :: (blank ++ later)).takeWhile (· == ' ') =
        List.replicate spaces ' ' := by
      rw [List.takeWhile_append_of_pos (by simp), List.takeWhile_cons_of_neg (by decide),
        List.append_nil]
    rw [List.append_assoc, List.cons_append, hspaces, List.takeWhile_append_of_pos hblank]
    simp

/-- There is only one first line break. -/
theorem FirstBreak.unique {before' m' after' : List Char} (h : FirstBreak cs before m after)
    (h' : FirstBreak cs before' m' after') : before = before' ∧ m = m' ∧ after = after' := by
  have hsuffix : m ++ after <:+ cs := ⟨before, h.eq.symm⟩
  have hsuffix' : m' ++ after' <:+ cs := ⟨before', h'.eq.symm⟩
  have hlength : (m ++ after).length = (m' ++ after').length := Nat.le_antisymm
    (h'.leftmost _ hsuffix ⟨m, h.isLineBreak, List.prefix_append _ _⟩)
    (h.leftmost _ hsuffix' ⟨m', h'.isLineBreak, List.prefix_append _ _⟩)
  obtain ⟨hbefore, htail⟩ := List.append_inj' (h.eq.symm.trans h'.eq) hlength
  have hm : m.length = m'.length := Nat.le_antisymm
    (h'.longest m h.isLineBreak (htail ▸ List.prefix_append _ _))
    (h.longest m' h'.isLineBreak (htail ▸ List.prefix_append _ _))
  exact ⟨hbefore, List.append_inj htail hm⟩

/-- A list has only one rest without line breaks. -/
theorem LessBreaks.unique {out' : List Char} (h : LessBreaks cs out) (h' : LessBreaks cs out') :
    out = out' := by
  induction h generalizing out' with
  | unbroken hcs =>
    cases h' with
    | unbroken => rfl
    | cut hfirst =>
      exact absurd ⟨_, hfirst.isLineBreak, List.prefix_append _ _⟩ (hcs _ ⟨_, hfirst.eq.symm⟩)
  | cut hfirst _ ih =>
    cases h' with
    | unbroken hcs =>
      exact absurd ⟨_, hfirst.isLineBreak, List.prefix_append _ _⟩ (hcs _ ⟨_, hfirst.eq.symm⟩)
    | cut hfirst' hafter' =>
      obtain ⟨rfl, rfl, rfl⟩ := hfirst.unique hfirst'
      rw [ih hafter']

/-- A character stays where no line break begins. -/
theorem LessBreaks.cons (hc : ¬ BreakBegins (c :: cs)) (h : LessBreaks cs out) :
    LessBreaks (c :: cs) (c :: out) := by
  cases h with
  | unbroken hcs =>
    refine .unbroken fun tail htail => ?_
    rcases List.suffix_cons_iff.1 htail with rfl | htail
    · exact hc
    · exact hcs tail htail
  | @cut _ before m after out hfirst hafter =>
    have hbehind : FirstBreak (c :: cs) (c :: before) m after := by
      refine ⟨congrArg (c :: ·) hfirst.eq, hfirst.isLineBreak, ?_, hfirst.longest⟩
      intro tail htail hbegins
      rcases List.suffix_cons_iff.1 htail with rfl | htail
      · exact absurd hbegins hc
      · exact hfirst.leftmost tail htail hbegins
    exact .cut hbehind hafter

/-! ## What the removal yields -/

theorem removeBreaksList_of_nil (h : cs.dropWhile (· == ' ') = []) : removeBreaksList cs = cs := by
  rw [removeBreaksList]
  split
  · rfl
  · next hd => cases h.symm.trans hd
  · next hd => cases h.symm.trans hd

theorem removeBreaksList_of_break (h : cs.dropWhile (· == ' ') = '\n' :: rest) :
    removeBreaksList cs = removeBreaksList (rest.dropWhile isAsciiBlank) := by
  rw [removeBreaksList]
  split
  · next hd => cases h.symm.trans hd
  · next hd =>
    obtain rfl := (List.cons.inj (h.symm.trans hd)).2
    rfl
  · next hc hd => exact absurd (List.cons.inj (hd.symm.trans h)).1 hc

theorem removeBreaksList_of_char (h : cs.dropWhile (· == ' ') = c :: rest) (hc : c ≠ '\n') :
    removeBreaksList cs = cs.takeWhile (· == ' ') ++ c :: removeBreaksList rest := by
  rw [removeBreaksList]
  split
  · next hd => cases h.symm.trans hd
  · next hd => exact absurd (List.cons.inj (h.symm.trans hd)).1 hc
  · next hd =>
    obtain ⟨rfl, rfl⟩ := List.cons.inj (h.symm.trans hd)
    rfl

/-- The characters at the front of a list where no line break begins. -/
theorem removeBreaksList_of_not_begins (h : ¬ BreakBegins cs) :
    removeBreaksList cs =
      cs.takeWhile (· == ' ') ++ removeBreaksList (cs.dropWhile (· == ' ')) := by
  cases hd : cs.dropWhile (· == ' ') with
  | nil =>
    have hcs := List.takeWhile_append_dropWhile (p := (· == ' ')) (l := cs)
    rw [hd] at hcs
    rw [removeBreaksList_of_nil hd, removeBreaksList_of_nil rfl, hcs]
  | cons c rest =>
    have hc : c ≠ '\n' := fun hc => h (breakBegins_iff.2 ⟨rest, hc ▸ hd⟩)
    have hspace : ¬ (c == ' ') = true := by
      have hhead := List.head?_dropWhile_not (· == ' ') cs
      rw [hd] at hhead
      simpa using hhead
    have hdrop : (c :: rest).dropWhile (· == ' ') = c :: rest := List.dropWhile_cons_of_neg hspace
    have htake : (c :: rest).takeWhile (· == ' ') = [] := List.takeWhile_cons_of_neg hspace
    rw [removeBreaksList_of_char hd hc, removeBreaksList_of_char hdrop hc, htake, List.nil_append]

/-- **A character stays where no line break begins.** -/
theorem removeBreaksList_cons (h : ¬ BreakBegins (c :: cs)) :
    removeBreaksList (c :: cs) = c :: removeBreaksList cs := by
  by_cases hspace : (c == ' ') = true
  · have hdrop : (c :: cs).dropWhile (· == ' ') = cs.dropWhile (· == ' ') :=
      List.dropWhile_cons_of_pos hspace
    have htake : (c :: cs).takeWhile (· == ' ') = c :: cs.takeWhile (· == ' ') :=
      List.takeWhile_cons_of_pos hspace
    have hcs : ¬ BreakBegins cs := by
      rw [breakBegins_iff, hdrop] at h
      rwa [breakBegins_iff]
    rw [removeBreaksList_of_not_begins h, removeBreaksList_of_not_begins hcs, htake, hdrop,
      List.cons_append]
  · have hdrop : (c :: cs).dropWhile (· == ' ') = c :: cs := List.dropWhile_cons_of_neg hspace
    have htake : (c :: cs).takeWhile (· == ' ') = [] := List.takeWhile_cons_of_neg hspace
    have hc : c ≠ '\n' := fun hc => h (breakBegins_iff.2 ⟨cs, hc ▸ hdrop⟩)
    rw [removeBreaksList_of_char hdrop hc, htake, List.nil_append]

/-- The removal takes out the first line break, and then those behind it. -/
theorem lessBreaks_removeBreaksList (cs : List Char) : LessBreaks cs (removeBreaksList cs) := by
  induction hn : cs.length using Nat.strongRecOn generalizing cs with
  | ind n ih =>
    subst hn
    by_cases hbegins : BreakBegins cs
    · obtain ⟨rest, hrest⟩ := breakBegins_iff.1 hbegins
      have hfirst := firstBreak_of_dropWhile hrest
      have hshorter : (rest.dropWhile isAsciiBlank).length < cs.length := by
        have hlength := congrArg List.length hfirst.eq
        simp only [List.nil_append, List.length_append, List.length_cons] at hlength
        omega
      rw [removeBreaksList_of_break hrest]
      exact .cut hfirst (ih _ hshorter _ rfl)
    · cases cs with
      | nil =>
        rw [removeBreaksList_of_nil rfl]
        exact .unbroken fun tail htail hm => by simpa [List.suffix_nil.1 htail] using hm.mem
      | cons c cs =>
        rw [removeBreaksList_cons hbegins]
        exact .cons hbegins (ih _ (Nat.lt_succ_self _) _ rfl)

/-- **What is left of a list without its line breaks is what the removal yields.** -/
theorem lessBreaks_iff : LessBreaks cs out ↔ out = removeBreaksList cs := by
  constructor
  · exact fun h => h.unique (lessBreaks_removeBreaksList cs)
  · rintro rfl
    exact lessBreaks_removeBreaksList cs

end

/-! ## The removal by offsets -/

section
variable {chars out : List Char} {i j : Nat}

/-- The offset behind the characters from an offset on that have a property.  A character is read by
    its offset; the result is none if that is not in the text. -/
def offsetBehind? (p : Char → Bool) (chars : List Char) (j : Nat) : Option Nat :=
  if _h : j < chars.length then do
    let c ← chars[j]?
    if p c then offsetBehind? p chars (j + 1) else return j
  else return j
termination_by chars.length - j

/-- Whether a character stands at an offset, which is read if the text has not ended there. -/
def standsAt? (c : Char) (chars : List Char) (j : Nat) : Option Bool :=
  if j < chars.length then do return (← chars[j]?) == c else return false

/-- One pass of the removal: what is written so far, and the offset where the next pass begins.
    Spaces are written only once it is known that no line feed follows them. -/
def breakPass? (chars out : List Char) (i : Nat) : Option (List Char × Nat) := do
  let c ← chars[i]?
  if c ≠ ' ' ∧ c ≠ '\n' then return (out ++ [c], i + 1)
  else
    let j ← offsetBehind? (· == ' ') chars i
    if ← standsAt? '\n' chars j then
      let behind ← offsetBehind? isAsciiBlank chars (j + 1)
      return (out, behind)
    else
      let spaces ← slice? chars i j
      return (out ++ spaces, j)

/-- **The offset behind a run is found**, and every read on the way is in the text. -/
theorem offsetBehind?_eq (p : Char → Bool) (h : j ≤ chars.length) :
    offsetBehind? p chars j = some (j + ((chars.drop j).takeWhile p).length) := by
  fun_induction offsetBehind? p chars j with
  | case1 j hj ih =>
    have hget : chars[j]? = some chars[j] := List.getElem?_eq_getElem hj
    simp only [hget, Option.bind_eq_bind, Option.bind_some]
    rw [List.drop_eq_getElem_cons hj]
    split
    · next hp =>
      rw [ih hj, List.takeWhile_cons_of_pos hp, List.length_cons]
      congr 1
      omega
    · next hp =>
      rw [List.takeWhile_cons_of_neg hp]
      rfl
  | case2 j hj =>
    rw [List.drop_eq_nil_of_le (Nat.le_of_not_lt hj)]
    rfl

theorem standsAt?_eq (c : Char) (chars : List Char) (j : Nat) :
    standsAt? c chars j = some ((chars.drop j).head? == some c) := by
  unfold standsAt?
  split
  · next hj =>
    rw [List.getElem?_eq_getElem hj, List.drop_eq_getElem_cons hj, List.head?_cons]
    rfl
  · next hj =>
    rw [List.drop_eq_nil_of_le (Nat.le_of_not_lt hj)]
    rfl

/-- The text in front of that offset and behind it. -/
theorem exists_offsetBehind? (p : Char → Bool) (h : j ≤ chars.length) :
    ∃ k, offsetBehind? p chars j = some k ∧ j ≤ k ∧ k ≤ chars.length ∧
      slice? chars j k = some ((chars.drop j).takeWhile p) ∧
      chars.drop k = (chars.drop j).dropWhile p := by
  have hprefix := List.takeWhile_prefix (l := chars.drop j) p
  have hle : j + ((chars.drop j).takeWhile p).length ≤ chars.length := by
    have hlength := hprefix.length_le
    rw [List.length_drop] at hlength
    omega
  refine ⟨_, offsetBehind?_eq p h, Nat.le_add_right _ _, hle, ?_, ?_⟩
  · rw [slice?, if_pos ⟨Nat.le_add_right _ _, hle⟩, List.drop_take, Nat.add_sub_cancel_left,
      ← List.prefix_iff_eq_take.1 hprefix]
  · rw [← List.drop_drop, drop_length_takeWhile]

/-- A pass that begins at a space or a line feed looks for the end of the spaces first. -/
theorem breakPass?_of_space (h : i < chars.length) (hc : chars[i] = ' ' ∨ chars[i] = '\n')
    (hj : offsetBehind? (· == ' ') chars i = some j) :
    breakPass? chars out i =
      if (chars.drop j).head? = some '\n' then
        (offsetBehind? isAsciiBlank chars (j + 1)).bind fun behind => some (out, behind)
      else (slice? chars i j).bind fun spaces => some (out ++ spaces, j) := by
  have hspace : ¬ (chars[i] ≠ ' ' ∧ chars[i] ≠ '\n') := by
    rintro ⟨hspace, hfeed⟩
    exact hc.elim hspace hfeed
  simp only [breakPass?, List.getElem?_eq_getElem h, Option.bind_eq_bind, Option.bind_some,
    if_neg hspace, hj, standsAt?_eq, beq_iff_eq]
  rfl

/-- A pass over a line break: nothing is written. -/
theorem breakPass?_of_break (out : List Char) (h : i < chars.length)
    (hc : chars[i] = ' ' ∨ chars[i] = '\n')
    (hrest : (chars.drop i).dropWhile (· == ' ') = '\n' :: rest) :
    ∃ j, breakPass? chars out i = some (out, j) ∧ i < j ∧ j ≤ chars.length ∧
      chars.drop j = rest.dropWhile isAsciiBlank := by
  obtain ⟨k, hk, hik, -, -, hdrop⟩ := exists_offsetBehind? (· == ' ') (Nat.le_of_lt h)
  rw [hrest] at hdrop
  have hlt : k < chars.length := by
    have hlength := congrArg List.length hdrop
    rw [List.length_drop, List.length_cons] at hlength
    omega
  have hbehind : chars.drop (k + 1) = rest := by
    rw [← List.drop_drop, hdrop]
    rfl
  obtain ⟨j, hj, hkj, hle, -, hblank⟩ := exists_offsetBehind? isAsciiBlank hlt
  refine ⟨j, ?_, by omega, hle, by rw [hblank, hbehind]⟩
  have hhead : (chars.drop k).head? = some '\n' := by
    rw [hdrop]
    rfl
  rw [breakPass?_of_space h hc hk, if_pos hhead, hj]
  rfl

/-- A pass over spaces that no line feed follows: they are written. -/
theorem breakPass?_of_spaces (out : List Char) (h : i < chars.length)
    (hc : chars[i] = ' ' ∨ chars[i] = '\n') (hbegins : ¬ BreakBegins (chars.drop i)) :
    ∃ j, breakPass? chars out i = some (out ++ (chars.drop i).takeWhile (· == ' '), j) ∧
      i < j ∧ j ≤ chars.length ∧ chars.drop j = (chars.drop i).dropWhile (· == ' ') := by
  obtain ⟨k, hk, hik, hle, hslice, hdrop⟩ := exists_offsetBehind? (· == ' ') (Nat.le_of_lt h)
  have hhead : (chars.drop k).head? ≠ some '\n' := by
    intro hhead
    obtain ⟨rest, hrest⟩ := List.head?_eq_some_iff.1 hhead
    exact hbegins (breakBegins_iff.2 ⟨rest, hdrop.symm.trans hrest⟩)
  have hne : i ≠ k := by
    -- at `k` there is no line feed, and no space either
    rintro rfl
    rw [List.drop_eq_getElem_cons h, List.head?_cons] at hhead
    have hspace := List.head?_dropWhile_not (· == ' ') (chars.drop i)
    rw [← hdrop, List.drop_eq_getElem_cons h, List.head?_cons] at hspace
    exact hc.elim (fun hc => by simp [hc] at hspace) fun hc => hhead (congrArg some hc)
  refine ⟨k, ?_, Nat.lt_of_le_of_ne hik hne, hle, hdrop⟩
  rw [breakPass?_of_space h hc hk, if_neg hhead, hslice]
  rfl

/-- **One pass of the removal** reads nothing outside of the text, and moves on: what it writes is
    what the removal yields of the characters it moves over. -/
theorem breakPass?_eq (h : i < chars.length) (out : List Char) :
    ∃ kept j, breakPass? chars out i = some (out ++ kept, j) ∧ i < j ∧ j ≤ chars.length ∧
      removeBreaksList (chars.drop i) = kept ++ removeBreaksList (chars.drop j) := by
  by_cases hc : chars[i] = ' ' ∨ chars[i] = '\n'
  · by_cases hbegins : BreakBegins (chars.drop i)
    · obtain ⟨rest, hrest⟩ := breakBegins_iff.1 hbegins
      obtain ⟨j, hpass, hlt, hle, hdrop⟩ := breakPass?_of_break out h hc hrest
      refine ⟨[], j, by rw [hpass, List.append_nil], hlt, hle, ?_⟩
      rw [removeBreaksList_of_break hrest, hdrop]
      rfl
    · obtain ⟨j, hpass, hlt, hle, hdrop⟩ := breakPass?_of_spaces out h hc hbegins
      exact ⟨_, j, hpass, hlt, hle, by rw [removeBreaksList_of_not_begins hbegins, hdrop]⟩
  · have hchar : chars[i] ≠ ' ' ∧ chars[i] ≠ '\n' := not_or.1 hc
    refine ⟨[chars[i]], i + 1, ?_, Nat.lt_succ_self i, h, ?_⟩
    · simp only [breakPass?, List.getElem?_eq_getElem h, Option.bind_eq_bind, Option.bind_some]
      rw [if_pos hchar]
      rfl
    · rw [List.drop_eq_getElem_cons h, removeBreaksList_cons]
      · rfl
      · rw [breakBegins_iff, List.dropWhile_cons_of_neg (p := (· == ' ')) (by simpa using hchar.1)]
        rintro ⟨_, heq⟩
        exact hchar.2 (List.cons.inj heq).1

/-- The removal by offsets, one pass after the other until the text ends. -/
def breakLoop? (chars out : List Char) (i : Nat) : Option (List Char) :=
  if _hi : i < chars.length then
    match _h : breakPass? chars out i with
    | none => none
    | some (written, j) => breakLoop? chars written j
  else some out
termination_by chars.length - i
decreasing_by
  obtain ⟨_, _, heq, _, _, _⟩ := breakPass?_eq _hi out
  cases _h.symm.trans heq
  omega

/-- **The removal by offsets** reads nothing outside of the text, and ends with what the removal
    yields. -/
theorem breakLoop?_eq (chars out : List Char) (i : Nat) :
    breakLoop? chars out i = some (out ++ removeBreaksList (chars.drop i)) := by
  fun_induction breakLoop? chars out i with
  | case1 out i hi hpass =>
    obtain ⟨kept, j, heq, -⟩ := breakPass?_eq hi out
    cases hpass.symm.trans heq
  | case2 out i hi written j hpass ih =>
    obtain ⟨kept, j, heq, -, -, hkept⟩ := breakPass?_eq hi out
    cases hpass.symm.trans heq
    rw [ih, hkept, List.append_assoc]
  | case3 out i hi =>
    rw [List.drop_eq_nil_of_le (Nat.le_of_not_lt hi), removeBreaksList_of_nil rfl, List.append_nil]

end

/-- **The leftmost longest line breaks are removed, and nothing else.**  The removal by offsets
    reads nothing outside of the text; each of its passes moves on, and it ends with the text that
    is left.  That is the text without its first line break, taken as long as it can be, without the
    first one behind that, and so on; every other character stays in its place.  No line feed is
    left, a text without one stays as it is, and a second removal changes nothing. -/
theorem removeBreaks_leftmost_longest (s : String) :
    breakLoop? s.toList [] 0 = some (removeBreaks s).toList ∧
    (∀ (out : List Char) (i : Nat), i < s.toList.length → ∃ kept j,
      breakPass? s.toList out i = some (out ++ kept, j) ∧ i < j ∧ j ≤ s.toList.length) ∧
    (∀ out, LessBreaks s.toList out ↔ out = (removeBreaks s).toList) ∧
    '\n' ∉ (removeBreaks s).toList ∧
    ('\n' ∉ s.toList → removeBreaks s = s) ∧
    removeBreaks (removeBreaks s) = removeBreaks s := by
  have hlist : (removeBreaks s).toList = removeBreaksList s.toList := String.toList_ofList
  refine ⟨?_, fun out i hi => ?_, fun out => ?_, ?_, removeBreaks_of_not_mem,
    removeBreaks_removeBreaks s⟩
  · rw [breakLoop?_eq, hlist]
    rfl
  · obtain ⟨kept, j, hpass, hlt, hle, -⟩ := breakPass?_eq hi out
    exact ⟨kept, j, hpass, hlt, hle⟩
  · rw [hlist]
    exact lessBreaks_iff
  · rw [hlist]
    exact not_mem_removeBreaksList _

/-- Two line breaks that are removed, the second with a tab and a carriage return behind it, and
    spaces that stay; and a text without a line feed. -/
theorem removeBreaks_leftmost_longest_mixed :
    LessBreaks "a \n\n b  c  \n\t\x0d d".toList "ab  cd".toList ∧
      (∃ kept j, breakPass? "a \n\n b  c  \n\t\x0d d".toList ['a'] 1 = some ('a' :: kept, j) ∧
        1 < j ∧ j ≤ "a \n\n b  c  \n\t\x0d d".toList.length) ∧
      '\n' ∉ "b  c".toList ∧ removeBreaks "b  c" = "b  c" := by
  obtain ⟨-, hpass, hless, -⟩ :=
    removeBreaks_leftmost_longest "a \n\n b  c  \n\t\x0d d"
  have hn : '\n' ∉ "b  c".toList := by decide +kernel
  exact ⟨(hless _).2 (by decide +kernel), hpass ['a'] 1 (by decide +kernel), hn,
    (removeBreaks_leftmost_longest "b  c").2.2.2.2.1 hn⟩

end BraceMarkup.Text
