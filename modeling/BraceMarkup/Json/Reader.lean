/-
  Reading JSON.

  The reader takes JSON as its grammar has it, and nothing behind it but blank
  characters.  Arrays and objects may be nested only as deep as a limit says.
  A surrogate in a string must be half of a pair.  A number that is not a
  whole one of 64 bits is read in two steps: as many of its digits as fit into
  64 bits, and then one multiplication or division by a power of ten, so the
  double is not always the nearest; a number too large for a double is refused.

  * `Json.readNumber?`, `Json.readString?`: numbers and strings, with what
    follows them;
  * `Json.readValue?`: any value, with what follows it;
  * `Json.read?`: the value that a whole text stands for.
-/
import BraceMarkup.Json

namespace BraceMarkup.Json

/-- A blank character of JSON. -/
def isBlank (c : Char) : Bool := c == ' ' || c == '\n' || c == '\t' || c == '\r'

/-- What is left after the blank characters at the front. -/
def skipBlank (cs : List Char) : List Char := cs.dropWhile isBlank

/-! ## Numbers -/

/-- Appends digits to a number as long as it stays below `2 ^ 64`: the number, and how many digits
    were taken. -/
def takeDigits (n : Nat) : List Char → Nat × Nat
  | [] => (n, 0)
  | c :: rest =>
    let longer := 10 * n + (c.toNat - '0'.toNat)
    if longer < Nat.pow 2 64 then
      let (m, taken) := takeDigits longer rest
      (m, taken + 1)
    else (n, 0)

/-- A power of ten as a double. -/
def powerOfTen (n : Nat) : Float := (Decimal.mk 1 n).toFloat

/-- Divides by ten `n` times: in steps of the largest power that is a double. -/
def scaleDown (x : Float) (n : Nat) : Float :=
  if n ≤ 308 then x / powerOfTen n
  else if x == 0 then x
  else scaleDown (x / powerOfTen 308) (n - 308)
termination_by n

/-- The double for `significand * 10 ^ exponent`, unless it is too large. -/
def scale? (significand : Nat) (exponent : Int) : Option Float :=
  let x := (Decimal.mk significand 0).toFloat
  match exponent with
  | .negSucc n => some (scaleDown x (n + 1))
  | .ofNat n =>
    if n ≤ 308 then
      let y := x * powerOfTen n
      if y.isInf then none else some y
    else if x == 0 then some x
    else none

/-- The part of a number behind its point, with what follows it; no digits if there is no point. -/
def readFraction? (cs : List Char) : Option (List Char × List Char) :=
  match cs with
  | '.' :: rest =>
    let digits := rest.takeWhile Char.isDigit
    if digits.isEmpty then none else some (digits, rest.dropWhile Char.isDigit)
  | _ => some ([], cs)

/-- The exponent of a number, with what follows it; nothing if no exponent is written. -/
def readExponent? (cs : List Char) : Option (Option Int × List Char) :=
  match cs with
  | c :: rest =>
    if c = 'e' ∨ c = 'E' then
      let (negative, rest) :=
        match rest with
        | '-' :: rest => (true, rest)
        | '+' :: rest => (false, rest)
        | rest => (false, rest)
      let digits := rest.takeWhile Char.isDigit
      if digits.isEmpty then none
      else
        let n : Int := Decimal.ofDigits digits
        some (some (if negative then -n else n), rest.dropWhile Char.isDigit)
    else some (none, cs)
  | [] => some (none, cs)

/-- The number that the parts of its text stand for. -/
def numberOf? (negative : Bool) (whole fraction : List Char) (exponent : Option Int) :
    Option Number :=
  let (n, takenWhole) := takeDigits 0 whole
  let (n, takenFraction) := takeDigits n fraction
  let dropped := whole.length - takenWhole
  if fraction.isEmpty ∧ exponent.isNone ∧ dropped = 0 then
    if !negative then some (.natural n)
    else if 0 < n ∧ n ≤ Nat.pow 2 63 then some (.negative n)
    else some (.double (-(Decimal.mk n 0).toFloat))
  else do
    let x ← scale? n (dropped - takenFraction + exponent.getD 0)
    return .double (if negative then -x else x)

/-- A number at the front of a list, with what follows it. -/
def readNumber? (cs : List Char) : Option (Number × List Char) := do
  let (negative, cs) :=
    match cs with
    | '-' :: rest => (true, rest)
    | cs => (false, cs)
  let whole := cs.takeWhile Char.isDigit
  if whole.isEmpty ∨ (whole.head? = some '0' ∧ 1 < whole.length) then none
  let (fraction, rest) ← readFraction? (cs.dropWhile Char.isDigit)
  let (exponent, rest) ← readExponent? rest
  return (← numberOf? negative whole fraction exponent, rest)

/-! ## Strings -/

/-- The value of a hexadecimal digit. -/
def hexValue? (c : Char) : Option Nat :=
  if '0' ≤ c ∧ c ≤ '9' then some (c.toNat - '0'.toNat)
  else if 'a' ≤ c ∧ c ≤ 'f' then some (c.toNat - 'a'.toNat + 10)
  else if 'A' ≤ c ∧ c ≤ 'F' then some (c.toNat - 'A'.toNat + 10)
  else none

/-- The number that four hexadecimal digits stand for. -/
def hexNumber? (a b c d : Char) : Option Nat := do
  return ((← hexValue? a) * 16 + (← hexValue? b)) * 256 + (← hexValue? c) * 16 + (← hexValue? d)

/-- The character that a backslash and a letter stand for. -/
def unescape? (c : Char) : Option Char :=
  match c with
  | '"' => some '"'
  | '\\' => some '\\'
  | '/' => some '/'
  | 'b' => some '\x08'
  | 'f' => some '\x0c'
  | 'n' => some '\n'
  | 'r' => some '\r'
  | 't' => some '\t'
  | _ => none

/-- The rest of a string, up to its closing quote, with what follows it.  `before` is what has been
    read of it, last character first. -/
def readString? (before : List Char) : List Char → Option (String × List Char)
  | [] => none
  | c :: rest =>
    if c = '"' then some (String.ofList before.reverse, rest)
    else if c = '\\' then
      match rest with
      | 'u' :: a :: b :: c :: d :: rest => do
        let u ← hexNumber? a b c d
        if 0xDC00 ≤ u ∧ u < 0xE000 then none
        else if 0xD800 ≤ u ∧ u < 0xDC00 then
          match rest with
          | '\\' :: 'u' :: a :: b :: c :: d :: rest => do
            let v ← hexNumber? a b c d
            if 0xDC00 ≤ v ∧ v < 0xE000 then
              readString?
                (Char.ofNat (0x10000 + (u - 0xD800) * 0x400 + (v - 0xDC00)) :: before) rest
            else none
          | _ => none
        else readString? (Char.ofNat u :: before) rest
      | c :: rest => do readString? ((← unescape? c) :: before) rest
      | [] => none
    else if c.toNat < 0x20 then none
    else readString? (c :: before) rest

/-! ## Values -/

mutual

/-- A value at the front of a list, blank characters before it passed over, with what follows it.
    Arrays and objects may be nested `depth` deep; every call uses up some `fuel`. -/
def readValue? (fuel depth : Nat) (cs : List Char) : Option (Json × List Char) :=
  match fuel with
  | 0 => none
  | fuel + 1 =>
    match skipBlank cs with
    | 'n' :: 'u' :: 'l' :: 'l' :: rest => some (.null, rest)
    | 't' :: 'r' :: 'u' :: 'e' :: rest => some (.boolean true, rest)
    | 'f' :: 'a' :: 'l' :: 's' :: 'e' :: rest => some (.boolean false, rest)
    | '"' :: rest => do
      let (s, rest) ← readString? [] rest
      return (.string s, rest)
    | '[' :: rest =>
      match depth with
      | 0 => none
      | depth + 1 =>
        match skipBlank rest with
        | ']' :: rest => some (.array [], rest)
        | rest => do
          let (items, rest) ← readItems? fuel depth rest
          return (.array items, rest)
    | '{' :: rest =>
      match depth with
      | 0 => none
      | depth + 1 =>
        match skipBlank rest with
        | '}' :: rest => some (.object [], rest)
        | rest => do
          let (members, rest) ← readMembers? fuel depth rest
          return (.object members, rest)
    | rest => do
      let (n, rest) ← readNumber? rest
      return (.number n, rest)

/-- The items of an array up to its closing bracket, at least one, with what follows it. -/
def readItems? (fuel depth : Nat) (cs : List Char) : Option (List Json × List Char) :=
  match fuel with
  | 0 => none
  | fuel + 1 => do
    let (item, rest) ← readValue? fuel depth cs
    match skipBlank rest with
    | ']' :: rest => return ([item], rest)
    | ',' :: rest =>
      let (items, rest) ← readItems? fuel depth rest
      return (item :: items, rest)
    | _ => none

/-- The members of an object up to its closing brace, at least one, with what follows it. -/
def readMembers? (fuel depth : Nat) (cs : List Char) :
    Option (List (String × Json) × List Char) :=
  match fuel with
  | 0 => none
  | fuel + 1 =>
    match skipBlank cs with
    | '"' :: rest => do
      let (name, rest) ← readString? [] rest
      match skipBlank rest with
      | ':' :: rest =>
        let (value, rest) ← readValue? fuel depth rest
        match skipBlank rest with
        | '}' :: rest => return ([(name, value)], rest)
        | ',' :: rest =>
          let (members, rest) ← readMembers? fuel depth rest
          return ((name, value) :: members, rest)
        | _ => none
      | _ => none
    | _ => none

end

/-- The value that a whole text stands for, if arrays and objects are nested at most `depth` deep.
    Every second call reads a character, so the fuel does not run out. -/
def read? (depth : Nat) (text : String) : Option Json := do
  let cs := text.toList
  let (value, rest) ← readValue? (2 * cs.length + 2) depth cs
  if (skipBlank rest).isEmpty then some value else none

/-- How deep arrays and objects of a document may be nested. -/
def maxDepth : Nat := 127

end BraceMarkup.Json
