/-
  JSON values are read back from their text.

  The text of a value depends on the layout, but its blank characters stand
  only where a reader passes them over.  Whether the value is read back
  depends on how deeply its arrays and objects are nested, and on nothing
  else.  Numbers are left out here: a text may end inside of one.

  * `Json.depth`: how deeply arrays and objects are nested;
  * `Json.Numberless`: no number stands in a value;
  * `Json.Layout.Blank`: a layout that adds nothing but blank characters;
  * `Json.readString?_writeString`: strings, character by character;
  * `Json.readValue?_writeAt`, `Json.readItems?_writeItems`,
    `Json.readMembers?_writeMembers`: values, items and members in front of
    any rest;
  * `Json.read?_write`: a value is read back exactly if it is not nested too
    deep.
-/
import BraceMarkup.Json.Reader

namespace BraceMarkup.Json

/-! ## What is read back -/

mutual

/-- How deeply arrays and objects are nested in a value. -/
def depth : Json → Nat
  | .null | .boolean _ | .number _ | .string _ => 0
  | .array items => 1 + depthItems items
  | .object members => 1 + depthMembers members

/-- How deeply arrays and objects are nested in some values. -/
def depthItems : List Json → Nat
  | [] => 0
  | item :: rest => max item.depth (depthItems rest)

/-- How deeply arrays and objects are nested in some members. -/
def depthMembers : List (String × Json) → Nat
  | [] => 0
  | (_, value) :: rest => max value.depth (depthMembers rest)

end

mutual

/-- No number stands in a value. -/
def Numberless : Json → Prop
  | .null | .boolean _ | .string _ => True
  | .number _ => False
  | .array items => NumberlessItems items
  | .object members => NumberlessMembers members

/-- No number stands in some values. -/
def NumberlessItems : List Json → Prop
  | [] => True
  | item :: rest => item.Numberless ∧ NumberlessItems rest

/-- No number stands in some members. -/
def NumberlessMembers : List (String × Json) → Prop
  | [] => True
  | (_, value) :: rest => value.Numberless ∧ NumberlessMembers rest

end

/-- A layout that adds nothing but blank characters: in front of items, and behind the colon of a
    member. -/
structure Layout.Blank (layout : Layout) : Prop where
  lineBreak : ∀ level, ∀ c ∈ (layout.lineBreak level).toList, isBlank c = true
  colon : ∃ blanks, layout.colon.toList = ':' :: blanks ∧ ∀ c ∈ blanks, isBlank c = true

theorem Layout.blank_compact : Layout.compact.Blank where
  lineBreak _ _ hc := by simp [Layout.compact] at hc
  colon := ⟨[], rfl, by simp⟩

theorem Layout.blank_indented (n : Nat) : (Layout.indented n).Blank where
  lineBreak level c hc := by
    simp only [Layout.indented, String.toList_append, String.toList_ofList, List.mem_append] at hc
    rcases hc with hc | hc
    · obtain rfl : c = '\n' := by simpa using hc
      rfl
    · obtain ⟨-, rfl⟩ := List.mem_replicate.1 hc
      rfl
  colon := ⟨[' '], by simp [Layout.indented], by simp [isBlank]⟩

/-! ## Blank characters -/

theorem skipBlank_append {blanks : List Char} (h : ∀ c ∈ blanks, isBlank c = true)
    (cs : List Char) : skipBlank (blanks ++ cs) = skipBlank cs :=
  List.dropWhile_append_of_pos h

theorem skipBlank_cons {c : Char} (h : isBlank c = false) (cs : List Char) :
    skipBlank (c :: cs) = c :: cs := by
  simp [skipBlank, h]

/-! ## Strings -/

/-- The digits of a control character, and the number that they stand for. -/
theorem hexDigits_below_16 : ∀ n < 0x10, (Text.hexDigits n).toList = [Nat.digitChar n] ∧
    hexNumber? '0' '0' '0' (Nat.digitChar n) = some n := by
  decide

theorem hexDigits_below_32 : ∀ n < 0x20, 0x10 ≤ n →
    (Text.hexDigits n).toList = ['1', Nat.digitChar (n - 0x10)] ∧
      hexNumber? '0' '0' '1' (Nat.digitChar (n - 0x10)) = some n := by
  decide

/-- A code point below the surrogates stands for its character. -/
theorem readString?_codePoint {n : Nat} (hn : n < 0xD800) {a b c d : Char}
    (h : hexNumber? a b c d = some n) (before cs : List Char) :
    readString? before ('\\' :: 'u' :: a :: b :: c :: d :: cs) =
      readString? (Char.ofNat n :: before) cs := by
  have hlow : ¬ (0xDC00 ≤ n ∧ n < 0xE000) := by omega
  have hhigh : ¬ (0xD800 ≤ n ∧ n < 0xDC00) := by omega
  simp [readString?, h, hlow, hhigh]

/-- A character is read back from how it stands inside a string. -/
theorem readString?_writeChar (before : List Char) (c : Char) (cs : List Char) :
    readString? before ((writeChar c).toList ++ cs) = readString? (c :: before) cs := by
  unfold writeChar
  split
  · simp [readString?, unescape?]
  · simp [readString?, unescape?]
  · simp [readString?, unescape?]
  · simp [readString?, unescape?]
  · simp [readString?, unescape?]
  · simp [readString?, unescape?]
  · simp [readString?, unescape?]
  · next hquote hbackslash _ _ _ _ _ =>
    split
    · next h =>
      obtain ⟨hdigits, hvalue⟩ := hexDigits_below_16 c.toNat h
      have hread := readString?_codePoint (by omega) hvalue before cs
      rw [Char.ofNat_toNat] at hread
      simpa [hdigits] using hread
    · split
      · next h16 h =>
        obtain ⟨hdigits, hvalue⟩ := hexDigits_below_32 c.toNat h (by omega)
        have hread := readString?_codePoint (by omega) hvalue before cs
        rw [Char.ofNat_toNat] at hread
        simpa [hdigits] using hread
      · next h32 =>
        have hquote : c ≠ '"' := hquote
        have hbackslash : c ≠ '\\' := hbackslash
        rw [Char.toString_eq_singleton, String.toList_singleton, List.singleton_append,
          readString?.eq_def]
        simp only
        rw [if_neg hquote, if_neg hbackslash, if_neg h32]

theorem readString?_writeChars (cs before rest : List Char) :
    readString? before (cs.flatMap (fun c => (writeChar c).toList) ++ '"' :: rest) =
      some (String.ofList (before.reverse ++ cs), rest) := by
  induction cs generalizing before with
  | nil => simp [readString?.eq_def]
  | cons c cs ih =>
    rw [List.flatMap_cons, List.append_assoc, readString?_writeChar, ih]
    simp

/-- What stands behind the quote that opens a string. -/
theorem toList_writeString (s : String) : (writeString s).toList =
    '"' :: (s.toList.flatMap (fun c => (writeChar c).toList) ++ ['"']) := by
  simp [writeString, String.toList_join, List.flatMap_map]

/-- A string is read back, whatever stands behind it. -/
theorem readString?_writeString (s : String) (rest : List Char) :
    readString? [] (s.toList.flatMap (fun c => (writeChar c).toList) ++ '"' :: rest) =
      some (s, rest) := by
  rw [readString?_writeChars, List.reverse_nil, List.nil_append, String.ofList_toList]

/-! ## What the reader does -/

section
variable {fuel limit : Nat} {cs behind rest tail : List Char}

theorem readValue?_null (h : skipBlank cs = 'n' :: 'u' :: 'l' :: 'l' :: rest) :
    readValue? (fuel + 1) limit cs = some (.null, rest) := by
  simp [readValue?, h]

theorem readValue?_true (h : skipBlank cs = 't' :: 'r' :: 'u' :: 'e' :: rest) :
    readValue? (fuel + 1) limit cs = some (.boolean true, rest) := by
  simp [readValue?, h]

theorem readValue?_false (h : skipBlank cs = 'f' :: 'a' :: 'l' :: 's' :: 'e' :: rest) :
    readValue? (fuel + 1) limit cs = some (.boolean false, rest) := by
  simp [readValue?, h]

theorem readValue?_string (h : skipBlank cs = '"' :: behind) {s : String}
    (hs : readString? [] behind = some (s, rest)) :
    readValue? (fuel + 1) limit cs = some (.string s, rest) := by
  simp [readValue?, h, hs]

/-- An array or an object is refused where none may be nested. -/
theorem readValue?_zero {c : Char} (h : skipBlank cs = c :: behind) (hc : c = '[' ∨ c = '\x7b') :
    readValue? (fuel + 1) 0 cs = none := by
  rcases hc with rfl | rfl
  · simp [readValue?, h]
  · simp [readValue?, h]

theorem readValue?_array_nil (h : skipBlank cs = '[' :: ']' :: rest) :
    readValue? (fuel + 1) (limit + 1) cs = some (.array [], rest) := by
  have hend : skipBlank (']' :: rest) = ']' :: rest := skipBlank_cons rfl rest
  simp [readValue?, h, hend]

theorem readValue?_object_nil (h : skipBlank cs = '\x7b' :: '\x7d' :: rest) :
    readValue? (fuel + 1) (limit + 1) cs = some (.object [], rest) := by
  have hend : skipBlank ('\x7d' :: rest) = '\x7d' :: rest := skipBlank_cons rfl rest
  simp [readValue?, h, hend]

theorem readValue?_array (h : skipBlank cs = '[' :: behind) {c : Char}
    (hb : skipBlank behind = c :: rest) (hc : c ≠ ']') : readValue? (fuel + 1) (limit + 1) cs =
      (readItems? fuel limit (c :: rest)).map fun r => (.array r.1, r.2) := by
  simp only [readValue?, h, hb]
  split
  · next hend => exact absurd (List.cons.inj hend).1 hc
  · cases readItems? fuel limit (c :: rest) <;> rfl

theorem readValue?_object (h : skipBlank cs = '\x7b' :: behind) {c : Char}
    (hb : skipBlank behind = c :: rest) (hc : c ≠ '\x7d') :
    readValue? (fuel + 1) (limit + 1) cs =
      (readMembers? fuel limit (c :: rest)).map fun r => (.object r.1, r.2) := by
  simp only [readValue?, h, hb]
  split
  · next hend => exact absurd (List.cons.inj hend).1 hc
  · cases readMembers? fuel limit (c :: rest) <;> rfl

theorem readItems?_none (h : readValue? fuel limit cs = none) :
    readItems? (fuel + 1) limit cs = none := by
  simp [readItems?, h]

theorem readItems?_last {item : Json} (h : readValue? fuel limit cs = some (item, rest))
    (hr : skipBlank rest = ']' :: tail) : readItems? (fuel + 1) limit cs = some ([item], tail) := by
  simp [readItems?, h, hr]

theorem readItems?_next {item : Json} (h : readValue? fuel limit cs = some (item, rest))
    (hr : skipBlank rest = ',' :: behind) : readItems? (fuel + 1) limit cs =
      (readItems? fuel limit behind).map fun r => (item :: r.1, r.2) := by
  simp only [readItems?, h, hr, Option.bind_eq_bind, Option.bind_some]
  cases readItems? fuel limit behind <;> rfl

/-- The value of a member, behind its name. -/
theorem readMembers?_none {name : String} {value : List Char} (h : skipBlank cs = '"' :: behind)
    (hs : readString? [] behind = some (name, rest)) (hr : skipBlank rest = ':' :: value)
    (hv : readValue? fuel limit value = none) : readMembers? (fuel + 1) limit cs = none := by
  simp [readMembers?, h, hs, hr, hv]

theorem readMembers?_last {name : String} {value after : List Char} {j : Json}
    (h : skipBlank cs = '"' :: behind) (hs : readString? [] behind = some (name, rest))
    (hr : skipBlank rest = ':' :: value) (hv : readValue? fuel limit value = some (j, after))
    (ha : skipBlank after = '\x7d' :: tail) :
    readMembers? (fuel + 1) limit cs = some ([(name, j)], tail) := by
  simp [readMembers?, h, hs, hr, hv, ha]

theorem readMembers?_next {name : String} {value after next : List Char} {j : Json}
    (h : skipBlank cs = '"' :: behind) (hs : readString? [] behind = some (name, rest))
    (hr : skipBlank rest = ':' :: value) (hv : readValue? fuel limit value = some (j, after))
    (ha : skipBlank after = ',' :: next) : readMembers? (fuel + 1) limit cs =
      (readMembers? fuel limit next).map fun r => ((name, j) :: r.1, r.2) := by
  simp only [readMembers?, h, hs, hr, hv, ha, Option.bind_eq_bind, Option.bind_some]
  cases readMembers? fuel limit next <;> rfl

end

/-! ## Values -/

/-- A condition on what is read, put on what becomes of it. -/
theorem map_ite_some {α β : Type} {p q : Prop} [Decidable p] [Decidable q] (h : p ↔ q) (x : α)
    (f : α → β) : (if p then some x else none).map f = if q then some (f x) else none := by
  by_cases hp : p
  · rw [if_pos hp, if_pos (h.1 hp), Option.map_some]
  · rw [if_neg hp, if_neg (mt h.2 hp), Option.map_none]

section
variable {layout : Layout}

/-- The items of an array, up to what stands in front of its closing bracket. -/
def itemsText (layout : Layout) (level : Nat) : List Json → List Char
  | [] => []
  | item :: rest => (writeAt layout level item).toList ++ (writeItems layout level rest).toList

/-- The members of an object, up to what stands in front of its closing brace. -/
def membersText (layout : Layout) (level : Nat) : List (String × Json) → List Char
  | [] => []
  | (name, value) :: rest => (writeString name).toList ++ (layout.colon.toList ++
      ((writeAt layout level value).toList ++ (writeMembers layout level rest).toList))

theorem toList_writeItems_cons (level : Nat) (item : Json) (rest : List Json) :
    (writeItems layout level (item :: rest)).toList =
      ',' :: ((layout.lineBreak level).toList ++ itemsText layout level (item :: rest)) := by
  simp [writeItems, itemsText]

theorem toList_writeMembers_cons (level : Nat) (member : String × Json)
    (rest : List (String × Json)) :
    (writeMembers layout level (member :: rest)).toList =
      ',' :: ((layout.lineBreak level).toList ++ membersText layout level (member :: rest)) := by
  simp [writeMembers, membersText]

theorem toList_writeAt_array (level : Nat) (item : Json) (rest : List Json) :
    (writeAt layout level (.array (item :: rest))).toList =
      '[' :: ((layout.lineBreak (level + 1)).toList ++ (itemsText layout (level + 1) (item :: rest)
        ++ ((layout.lineBreak level).toList ++ [']']))) := by
  simp [writeAt, itemsText]

theorem toList_writeAt_object (level : Nat) (member : String × Json)
    (rest : List (String × Json)) :
    (writeAt layout level (.object (member :: rest))).toList =
      '\x7b' :: ((layout.lineBreak (level + 1)).toList ++
        (membersText layout (level + 1) (member :: rest)
          ++ ((layout.lineBreak level).toList ++ ['\x7d']))) := by
  simp [writeAt, membersText]

/-- A value begins with a character that is not blank, and ends no array. -/
theorem toList_writeAt_eq_cons (layout : Layout) {j : Json} (hj : j.Numberless) (level : Nat) :
    ∃ c cs, (writeAt layout level j).toList = c :: cs ∧ isBlank c = false ∧ c ≠ ']' := by
  cases j with
  | null => exact ⟨'n', _, by simp [writeAt]; rfl, rfl, by decide⟩
  | boolean b =>
    cases b with
    | true => exact ⟨'t', _, by simp [writeAt]; rfl, rfl, by decide⟩
    | false => exact ⟨'f', _, by simp [writeAt]; rfl, rfl, by decide⟩
  | number n => exact hj.elim
  | string s => exact ⟨'"', _, by rw [writeAt, toList_writeString], rfl, by decide⟩
  | array items =>
    cases items with
    | nil => exact ⟨'[', _, by simp [writeAt]; rfl, rfl, by decide⟩
    | cons item rest => exact ⟨'[', _, toList_writeAt_array level item rest, rfl, by decide⟩
  | object members =>
    cases members with
    | nil => exact ⟨'\x7b', _, by simp [writeAt]; rfl, rfl, by decide⟩
    | cons member rest =>
      exact ⟨'\x7b', _, toList_writeAt_object level member rest, rfl, by decide⟩

/-- Fuel for the characters of a value is fuel for a call. -/
theorem exists_fuel {layout : Layout} {j : Json} (hj : j.Numberless) {level fuel : Nat}
    (hfuel : 2 * (writeAt layout level j).toList.length ≤ fuel) : ∃ left, fuel = left + 1 := by
  obtain ⟨c, cs, hcs, -⟩ := toList_writeAt_eq_cons layout hj level
  rw [hcs, List.length_cons] at hfuel
  exact Nat.exists_eq_succ_of_ne_zero (by omega)

theorem itemsText_append_eq_cons (layout : Layout) {items : List Json}
    (hi : NumberlessItems items) (hne : items ≠ []) (level : Nat) (rest : List Char) :
    ∃ c cs, itemsText layout level items ++ rest = c :: cs ∧ isBlank c = false ∧ c ≠ ']' := by
  cases items with
  | nil => exact absurd rfl hne
  | cons item items =>
    obtain ⟨c, cs, hcs, hblank, hclose⟩ := toList_writeAt_eq_cons layout hi.1 level
    exact ⟨c, _, by rw [itemsText, hcs]; rfl, hblank, hclose⟩

theorem membersText_append_eq_cons (layout : Layout) {members : List (String × Json)}
    (hne : members ≠ []) (level : Nat) (rest : List Char) :
    ∃ cs, membersText layout level members ++ rest = '"' :: cs := by
  cases members with
  | nil => exact absurd rfl hne
  | cons member members => exact ⟨_, by rw [membersText, toList_writeString]; rfl⟩

/-- The closing bracket or brace behind what was read. -/
theorem skipBlank_close (hl : layout.Blank) (level : Nat) {c : Char} (hc : isBlank c = false)
    (rest : List Char) : skipBlank ((layout.lineBreak level).toList ++ c :: rest) = c :: rest := by
  rw [skipBlank_append (hl.lineBreak level), skipBlank_cons hc]

mutual

/-- **A value is read back in front of any rest**, exactly if it is not nested too deep.  Two calls
    for every character suffice. -/
theorem readValue?_writeAt (hl : layout.Blank) : ∀ (j : Json), j.Numberless →
    ∀ {level fuel : Nat} (limit : Nat) {cs rest : List Char},
      skipBlank cs = (writeAt layout level j).toList ++ rest →
      2 * (writeAt layout level j).toList.length ≤ fuel →
      readValue? fuel limit cs = if j.depth ≤ limit then some (j, rest) else none
  | .number n, hj, _, _, _, _, _, _, _ => hj.elim
  | .null, hj, level, fuel, limit, cs, rest, hcs, hfuel => by
    obtain ⟨fuel, rfl⟩ := exists_fuel hj hfuel
    have hcs : skipBlank cs = 'n' :: 'u' :: 'l' :: 'l' :: rest := by simpa [writeAt] using hcs
    rw [readValue?_null hcs, depth, if_pos (Nat.zero_le limit)]
  | .boolean true, hj, level, fuel, limit, cs, rest, hcs, hfuel => by
    obtain ⟨fuel, rfl⟩ := exists_fuel hj hfuel
    have hcs : skipBlank cs = 't' :: 'r' :: 'u' :: 'e' :: rest := by simpa [writeAt] using hcs
    rw [readValue?_true hcs, depth, if_pos (Nat.zero_le limit)]
  | .boolean false, hj, level, fuel, limit, cs, rest, hcs, hfuel => by
    obtain ⟨fuel, rfl⟩ := exists_fuel hj hfuel
    have hcs : skipBlank cs = 'f' :: 'a' :: 'l' :: 's' :: 'e' :: rest := by
      simpa [writeAt] using hcs
    rw [readValue?_false hcs, depth, if_pos (Nat.zero_le limit)]
  | .string s, hj, level, fuel, limit, cs, rest, hcs, hfuel => by
    obtain ⟨fuel, rfl⟩ := exists_fuel hj hfuel
    rw [writeAt, toList_writeString, List.cons_append, List.append_assoc] at hcs
    rw [readValue?_string hcs (readString?_writeString s rest), depth, if_pos (Nat.zero_le limit)]
  | .array [], hj, level, fuel, limit, cs, rest, hcs, hfuel => by
    obtain ⟨fuel, rfl⟩ := exists_fuel hj hfuel
    have hcs : skipBlank cs = '[' :: ']' :: rest := by simpa [writeAt] using hcs
    cases limit with
    | zero => rw [readValue?_zero hcs (.inl rfl), depth, if_neg (by omega)]
    | succ limit => rw [readValue?_array_nil hcs, depth, depthItems, if_pos (by omega)]
  | .array (item :: items), hj, level, fuel, limit, cs, rest, hcs, hfuel => by
    obtain ⟨fuel, rfl⟩ := exists_fuel hj hfuel
    rw [toList_writeAt_array] at hcs hfuel
    simp only [List.cons_append, List.append_assoc, List.nil_append] at hcs
    simp only [List.length_cons, List.length_append] at hfuel
    cases limit with
    | zero => rw [readValue?_zero hcs (.inl rfl), depth, if_neg (by omega)]
    | succ limit =>
      obtain ⟨c, ds, hds, hblank, hclose⟩ := itemsText_append_eq_cons layout hj
        (List.cons_ne_nil item items) (level + 1) ((layout.lineBreak level).toList ++ ']' :: rest)
      have hitems := readItems?_writeItems hl (item :: items) hj (List.cons_ne_nil item items)
        limit ((skipBlank_cons hblank ds).trans hds.symm) (by omega : _ < fuel)
      rw [hds] at hcs
      have hbehind := (skipBlank_append (hl.lineBreak (level + 1)) (c :: ds)).trans
        (skipBlank_cons hblank ds)
      rw [readValue?_array hcs hbehind hclose, hitems, depth]
      exact map_ite_some (by omega) _ _
  | .object [], hj, level, fuel, limit, cs, rest, hcs, hfuel => by
    obtain ⟨fuel, rfl⟩ := exists_fuel hj hfuel
    have hcs : skipBlank cs = '\x7b' :: '\x7d' :: rest := by simpa [writeAt] using hcs
    cases limit with
    | zero => rw [readValue?_zero hcs (.inr rfl), depth, if_neg (by omega)]
    | succ limit => rw [readValue?_object_nil hcs, depth, depthMembers, if_pos (by omega)]
  | .object (member :: members), hj, level, fuel, limit, cs, rest, hcs, hfuel => by
    obtain ⟨fuel, rfl⟩ := exists_fuel hj hfuel
    rw [toList_writeAt_object] at hcs hfuel
    simp only [List.cons_append, List.append_assoc, List.nil_append] at hcs
    simp only [List.length_cons, List.length_append] at hfuel
    cases limit with
    | zero => rw [readValue?_zero hcs (.inr rfl), depth, if_neg (by omega)]
    | succ limit =>
      obtain ⟨ds, hds⟩ := membersText_append_eq_cons layout
        (List.cons_ne_nil member members) (level + 1)
        ((layout.lineBreak level).toList ++ '\x7d' :: rest)
      have hblank : skipBlank ('"' :: ds) = '"' :: ds := skipBlank_cons rfl ds
      have hmembers := readMembers?_writeMembers hl (member :: members) hj
        (List.cons_ne_nil member members) limit (hblank.trans hds.symm) (by omega : _ < fuel)
      rw [hds] at hcs
      have hbehind := (skipBlank_append (hl.lineBreak (level + 1)) ('"' :: ds)).trans hblank
      rw [readValue?_object hcs hbehind (by decide), hmembers, depth]
      exact map_ite_some (by omega) _ _

/-- The items of an array are read back up to its closing bracket. -/
theorem readItems?_writeItems (hl : layout.Blank) : ∀ (items : List Json), NumberlessItems items →
    items ≠ [] → ∀ {level outer fuel : Nat} (limit : Nat) {cs tail : List Char},
      skipBlank cs = itemsText layout level items ++
        ((layout.lineBreak outer).toList ++ ']' :: tail) →
      2 * (itemsText layout level items).length < fuel →
      readItems? fuel limit cs = if depthItems items ≤ limit then some (items, tail) else none
  | [], _, hne, _, _, _, _, _, _, _, _ => absurd rfl hne
  | item :: rest, hi, _, level, outer, 0, limit, cs, tail, hcs, hfuel =>
    absurd hfuel (Nat.not_lt_zero _)
  | item :: rest, hi, _, level, outer, fuel + 1, limit, cs, tail, hcs, hfuel => by
    rw [itemsText, List.append_assoc] at hcs
    rw [itemsText, List.length_append] at hfuel
    have hitem := readValue?_writeAt hl item hi.1 limit hcs (by omega : _ ≤ fuel)
    rw [depthItems]
    by_cases hdepth : item.depth ≤ limit
    · rw [if_pos hdepth] at hitem
      cases rest with
      | nil =>
        rw [readItems?_last hitem (by simpa [writeItems] using skipBlank_close hl outer rfl tail),
          depthItems, if_pos (by omega)]
      | cons next rest =>
        rw [toList_writeItems_cons] at hitem hfuel
        obtain ⟨c, ds, hds, hblank, -⟩ := itemsText_append_eq_cons layout hi.2
          (List.cons_ne_nil next rest) level ((layout.lineBreak outer).toList ++ ']' :: tail)
        simp only [List.length_cons, List.length_append] at hfuel
        have hcomma : skipBlank (',' :: ((layout.lineBreak level).toList ++ (c :: ds))) =
            ',' :: ((layout.lineBreak level).toList ++ (c :: ds)) := skipBlank_cons rfl _
        have hnext := (skipBlank_append (hl.lineBreak level) (c :: ds)).trans
          ((skipBlank_cons hblank ds).trans hds.symm)
        have hitems := readItems?_writeItems hl (next :: rest) hi.2 (List.cons_ne_nil next rest)
          limit hnext (by omega : _ < fuel)
        rw [List.cons_append, List.append_assoc, hds] at hitem
        rw [readItems?_next hitem hcomma, hitems]
        exact map_ite_some (by omega) _ _
    · rw [if_neg hdepth] at hitem
      rw [readItems?_none hitem, if_neg (by omega)]

/-- The members of an object are read back up to its closing brace. -/
theorem readMembers?_writeMembers (hl : layout.Blank) : ∀ (members : List (String × Json)),
    NumberlessMembers members → members ≠ [] →
    ∀ {level outer fuel : Nat} (limit : Nat) {cs tail : List Char},
      skipBlank cs = membersText layout level members ++
        ((layout.lineBreak outer).toList ++ '\x7d' :: tail) →
      2 * (membersText layout level members).length < fuel →
      readMembers? fuel limit cs =
        if depthMembers members ≤ limit then some (members, tail) else none
  | [], _, hne, _, _, _, _, _, _, _, _ => absurd rfl hne
  | member :: rest, hi, _, level, outer, 0, limit, cs, tail, hcs, hfuel =>
    absurd hfuel (Nat.not_lt_zero _)
  | (name, value) :: rest, hi, _, level, outer, fuel + 1, limit, cs, tail, hcs, hfuel => by
    obtain ⟨blanks, hcolon, hblanks⟩ := hl.colon
    obtain ⟨c, ds, hds, hblank, -⟩ := toList_writeAt_eq_cons layout hi.1 level
    rw [membersText, hcolon, toList_writeString] at hcs hfuel
    simp only [List.cons_append, List.append_assoc, List.nil_append] at hcs
    simp only [List.length_cons, List.length_append, List.length_nil] at hfuel
    have hname := readString?_writeString name (':' :: (blanks ++
      ((writeAt layout level value).toList ++ ((writeMembers layout level rest).toList ++
        ((layout.lineBreak outer).toList ++ '\x7d' :: tail)))))
    have hbehind : ∀ after : List Char,
        skipBlank (blanks ++ ((writeAt layout level value).toList ++ after)) =
          (writeAt layout level value).toList ++ after := by
      intro after
      rw [skipBlank_append hblanks, hds, List.cons_append, skipBlank_cons hblank]
    have hvalue := readValue?_writeAt hl value hi.1 limit
      (hbehind ((writeMembers layout level rest).toList ++
        ((layout.lineBreak outer).toList ++ '\x7d' :: tail))) (by omega : _ ≤ fuel)
    rw [depthMembers]
    by_cases hdepth : value.depth ≤ limit
    · rw [if_pos hdepth] at hvalue
      cases rest with
      | nil =>
        rw [readMembers?_last hcs hname (skipBlank_cons rfl _) hvalue
          (by simpa [writeMembers] using skipBlank_close hl outer rfl tail), depthMembers,
          if_pos (by omega)]
      | cons next rest =>
        obtain ⟨es, hes⟩ := membersText_append_eq_cons layout
          (List.cons_ne_nil next rest) level ((layout.lineBreak outer).toList ++ '\x7d' :: tail)
        rw [toList_writeMembers_cons] at hvalue hfuel hcs hname
        simp only [List.length_cons, List.length_append] at hfuel
        simp only [List.cons_append, List.append_assoc, hes] at hvalue hcs hname
        have hnext := (skipBlank_append (hl.lineBreak level) ('"' :: es)).trans
          ((skipBlank_cons rfl es).trans hes.symm)
        have hmembers := readMembers?_writeMembers hl (next :: rest) hi.2
          (List.cons_ne_nil next rest) limit hnext (by omega : _ < fuel)
        rw [readMembers?_next hcs hname (skipBlank_cons rfl _) hvalue (skipBlank_cons rfl _),
          hmembers]
        exact map_ite_some (by omega) _ _
    · rw [if_neg hdepth] at hvalue
      rw [readMembers?_none hcs hname (skipBlank_cons rfl _) hvalue, if_neg (by omega)]

end

end

/-- **A value without numbers is read back from its text** exactly if its arrays and objects are
    nested no deeper than the limit. -/
theorem read?_write {layout : Layout} (hl : layout.Blank) {j : Json} (hj : j.Numberless)
    (limit : Nat) : read? limit (write layout j) = if j.depth ≤ limit then some j else none := by
  obtain ⟨c, ds, hds, hblank, -⟩ := toList_writeAt_eq_cons layout hj 0
  have hstart : skipBlank (write layout j).toList = (writeAt layout 0 j).toList ++ [] := by
    rw [write, hds, skipBlank_cons hblank, List.append_nil]
  have hread : readValue? (2 * (write layout j).toList.length + 2) limit (write layout j).toList =
      if j.depth ≤ limit then some (j, []) else none :=
    readValue?_writeAt hl j hj limit hstart (Nat.le_add_right _ 2)
  by_cases hdepth : j.depth ≤ limit
  · rw [if_pos hdepth] at hread ⊢
    simp only [read?, hread, Option.bind_eq_bind, Option.bind_some]
    rfl
  · rw [if_neg hdepth] at hread ⊢
    simp only [read?, hread, Option.bind_eq_bind, Option.bind_none]

end BraceMarkup.Json
