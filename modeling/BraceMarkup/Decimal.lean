/-
  Decimal numbers.

  A `Decimal` is a natural number times a power of ten.

  * `Decimal.normalize`: the same number without zeros at the end of its
    digits;
  * `Decimal.positional`: its digits with a point where it belongs and never
    an exponent;
  * `Decimal.read?`: the number that a text of digits, with a fraction and an
    exponent if any, stands for.
-/

namespace BraceMarkup

/-- The number `significand * 10 ^ exponent`. -/
structure Decimal where
  significand : Nat
  exponent : Int
  deriving Repr, DecidableEq

namespace Decimal

/-- Takes the zeros off the end of a significand and counts them in the exponent. -/
def normalizeFrom (n : Nat) (e : Int) : Decimal :=
  if _h : n ≠ 0 ∧ n % 10 = 0 then normalizeFrom (n / 10) (e + 1) else ⟨n, e⟩
termination_by n
decreasing_by omega

/-- The same number with as few digits as it can have. -/
def normalize (d : Decimal) : Decimal := normalizeFrom d.significand d.exponent

/-- The digits of a natural number. -/
def digits (n : Nat) : List Char := Nat.toDigits 10 n

/-- The number written out: all its digits, with a point if some stand behind it. -/
def positional (d : Decimal) : String :=
  let ds := digits d.significand
  match d.exponent with
  | .ofNat zeros => String.ofList (ds ++ List.replicate zeros '0')
  | .negSucc n =>
    let places := n + 1
    let padded := List.replicate (places + 1 - ds.length) '0' ++ ds
    let whole := padded.length - places
    String.ofList (padded.take whole ++ '.' :: padded.drop whole)

/-! ## Reading -/

/-- The natural number that some digits stand for. -/
def ofDigits (ds : List Char) : Nat :=
  ds.foldl (fun n c => 10 * n + (c.toNat - '0'.toNat)) 0

/-- The exponent at the end of a number: nothing at all, or an `e` with an optional sign and at
    least one digit. -/
def readExponent? (cs : List Char) : Option Int :=
  match cs with
  | [] => some 0
  | c :: rest =>
    if c = 'e' ∨ c = 'E' then
      let (negative, ds) :=
        match rest with
        | '-' :: ds => (true, ds)
        | '+' :: ds => (false, ds)
        | ds => (false, ds)
      if ds.isEmpty ∨ !ds.all Char.isDigit then none
      else some (if negative then -(ofDigits ds : Int) else ofDigits ds)
    else none

/-- Reads a number without a sign: digits, of which some may stand behind a point, and an
    exponent. -/
def read? (s : String) : Option Decimal :=
  let cs := s.toList
  let whole := cs.takeWhile Char.isDigit
  let rest := cs.dropWhile Char.isDigit
  let (fraction, rest) :=
    match rest with
    | '.' :: rest => (rest.takeWhile Char.isDigit, rest.dropWhile Char.isDigit)
    | rest => ([], rest)
  if whole.isEmpty && fraction.isEmpty then none
  else do
    let e ← readExponent? rest
    return ⟨ofDigits (whole ++ fraction), e - fraction.length⟩

end Decimal

end BraceMarkup
