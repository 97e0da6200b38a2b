/-
  The shortest decimal number that reads back as a double.

  The reals that round to a double form an interval around it, which holds
  its ends if the double's significand is even.  Of the decimal numbers in the
  interval those with the fewest digits are taken, of these the nearest, and
  of two equally near the larger.  A grid of decimals meets the interval only
  if one of the two grid points next to the double does, so no others are
  tried.

  * `Binary`, `Binary.ofBits`: a double as a natural number times a power of
    two;
  * `Binary.onGrid?`: the nearest decimal of a number of digits that reads
    back;
  * `Binary.shortest`: the shortest decimal that reads back.
-/
import BraceMarkup.Decimal

namespace BraceMarkup

/-- The number `significand * 2 ^ exponent`. -/
structure Binary where
  significand : Nat
  exponent : Int
  deriving Repr, DecidableEq

namespace Binary

/-- The number that the encoding of a finite double stands for, its sign left out. -/
def ofBits (bits : Nat) : Binary :=
  let fraction := bits % Nat.pow 2 52
  let biased : Nat := bits / Nat.pow 2 52 % Nat.pow 2 11
  if biased = 0 then ⟨fraction, -1074⟩ else ⟨Nat.pow 2 52 + fraction, (biased : Int) - 1075⟩

/-- A quarter of the last place of the significand, as a quotient. -/
def quarter (b : Binary) : Nat × Nat :=
  match b.exponent - 2 with
  | .ofNat n => (Nat.pow 2 n, 1)
  | .negSucc n => (1, Nat.pow 2 (n + 1))

/-- How many quarters below the number the interval begins: the doubles below a power of two lie
    closer together. -/
def below (b : Binary) : Nat := if b.significand = Nat.pow 2 52 then 1 else 2

/-- How many digits the number has before its point; zero or less if it begins behind it. -/
def wholeDigits (b : Binary) : Int :=
  let (unit, den) := b.quarter
  let num := 4 * b.significand * unit
  if den ≤ num then (Decimal.digits (num / den)).length
  else 1 - ((Decimal.digits ((den - 1) / num)).length : Int)

/-- The nearest decimal with `n` digits that rounds to the number, if there is one. -/
def onGrid? (b : Binary) (n : Nat) : Option Decimal :=
  let e := b.wholeDigits - n
  let (unit, den) := b.quarter
  -- the unit of the grid and a quarter of the last place over one denominator
  let (step, unit) :=
    match e with
    | .ofNat k => (den * Nat.pow 10 k, unit)
    | .negSucc k => (den, unit * Nat.pow 10 (k + 1))
  let value := 4 * b.significand * unit
  let low := (4 * b.significand - b.below) * unit
  let high := (4 * b.significand + 2) * unit
  let even := b.significand % 2 = 0
  let down := value / step
  let up := down + 1
  let downFits : Bool := low < down * step || (even && low == down * step)
  let upFits : Bool := up * step < high || (even && up * step == high)
  if downFits && (!upFits || 2 * value < (down + up) * step) then some ⟨down, e⟩
  else if upFits then some ⟨up, e⟩
  else none

/-- The shortest decimal that rounds to the number: seventeen digits are always enough. -/
def shortest (b : Binary) : Decimal :=
  if b.significand = 0 then ⟨0, 0⟩
  else (((List.range' 1 17).findSome? b.onGrid?).getD ⟨0, 0⟩).normalize

end Binary

end BraceMarkup
