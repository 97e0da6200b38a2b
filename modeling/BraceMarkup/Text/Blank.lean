/-
  Blank characters.

  The blank characters are those with the Unicode property `White_Space`.
  Text is called blank when it holds nothing else, and trimming takes the
  blank characters off both ends.

  * `isBlank`: the property on characters;
  * `trimWith`, `trim`, `trimSpaces`: text less the characters at its ends
    that satisfy a test, that are blank, or that are spaces;
  * `trimListWith_of_all`: nothing is left of a list that satisfies the test
    throughout;
  * `trimListWith_append`, `trim_trim`: what is trimmed off plays no part, and
    nothing is trimmed off twice.
-/

namespace BraceMarkup.Text

/-- A character with the Unicode property `White_Space`. -/
def isBlank (c : Char) : Bool :=
  let n := c.toNat
  (0x09 ≤ n && n ≤ 0x0D) || n == 0x20 || n == 0x85 || n == 0xA0 || n == 0x1680 ||
    (0x2000 ≤ n && n ≤ 0x200A) || n == 0x2028 || n == 0x2029 || n == 0x202F || n == 0x205F ||
    n == 0x3000

/-- An ASCII character that ends or indents a line: space, tab, line feed, form feed or carriage
    return. -/
def isAsciiBlank (c : Char) : Bool :=
  c == ' ' || c == '\t' || c == '\n' || c == '\x0c' || c == '\r'

/-- A list less the elements at both ends that satisfy `drop`. -/
def trimListWith (drop : Char → Bool) (cs : List Char) : List Char :=
  ((cs.dropWhile drop).reverse.dropWhile drop).reverse

/-- A text less the characters at both ends that satisfy `drop`. -/
def trimWith (drop : Char → Bool) (s : String) : String :=
  String.ofList (trimListWith drop s.toList)

/-- A text less the blank characters at both ends. -/
def trim (s : String) : String := trimWith isBlank s

/-- A text less the spaces at both ends; other blank characters stay. -/
def trimSpaces (s : String) : String := trimWith (· == ' ') s

/-- Whether a text holds blank characters only. -/
def isBlankText (s : String) : Bool := s.toList.all isBlank

/-- Nothing is left of a list that satisfies the test throughout. -/
theorem trimListWith_of_all {drop : Char → Bool} {cs : List Char} (h : cs.all drop = true) :
    trimListWith drop cs = [] := by
  have : cs.dropWhile drop = [] := by
    induction cs with
    | nil => rfl
    | cons c cs ih => simp_all
  simp [trimListWith, this]

/-- What satisfies the test at both ends plays no part. -/
theorem trimListWith_append {drop : Char → Bool} {before after : List Char}
    (hb : ∀ c ∈ before, drop c = true) (ha : ∀ c ∈ after, drop c = true) (cs : List Char) :
    trimListWith drop (before ++ (cs ++ after)) = trimListWith drop cs := by
  have hafter : (after ++ []).dropWhile drop = [] := List.dropWhile_append_of_pos ha
  rw [List.append_nil] at hafter
  rw [trimListWith, trimListWith, List.dropWhile_append_of_pos hb, List.dropWhile_append]
  split
  · next hcs =>
    rw [hafter, List.isEmpty_iff.1 hcs]
  · rw [List.reverse_append, List.dropWhile_append_of_pos (by simpa using ha)]

/-- A list is what is left of it between what is trimmed off. -/
theorem exists_eq_append_trimListWith (drop : Char → Bool) (cs : List Char) :
    ∃ before after, cs = before ++ (trimListWith drop cs ++ after) ∧
      (∀ c ∈ before, drop c = true) ∧ ∀ c ∈ after, drop c = true := by
  refine ⟨cs.takeWhile drop, ((cs.dropWhile drop).reverse.takeWhile drop).reverse, ?_, ?_, ?_⟩
  · rw [trimListWith, ← List.reverse_append, List.takeWhile_append_dropWhile, List.reverse_reverse,
      List.takeWhile_append_dropWhile]
  · exact fun c hc => List.all_eq_true.1 List.all_takeWhile c hc
  · exact fun c hc => List.all_eq_true.1 List.all_takeWhile c (List.mem_reverse.1 hc)

/-- Nothing is trimmed off twice. -/
theorem trimListWith_trimListWith (drop : Char → Bool) (cs : List Char) :
    trimListWith drop (trimListWith drop cs) = trimListWith drop cs := by
  obtain ⟨before, after, hcs, hbefore, hafter⟩ := exists_eq_append_trimListWith drop cs
  calc trimListWith drop (trimListWith drop cs)
      = trimListWith drop (before ++ (trimListWith drop cs ++ after)) :=
        (trimListWith_append hbefore hafter _).symm
    _ = trimListWith drop cs := by rw [← hcs]

theorem trim_trim (s : String) : trim (trim s) = trim s := by
  rw [trim, trimWith, trim, trimWith, String.toList_ofList, trimListWith_trimListWith]

end BraceMarkup.Text
