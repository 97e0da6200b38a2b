/-
  The double nearest to a number.

  A double is a natural number below `2 ^ 53` times a power of two, whose
  exponent is at least `-1074`.  The nearest one is found in exact arithmetic;
  where two are equally near it is the one with the even significand, and
  beyond the largest one it is infinity.

  * `roundQuotient`: the natural number nearest to a quotient;
  * `nearestBits`: the encoding of the double nearest to a quotient;
  * `Decimal.toFloat`: the double nearest to a decimal number.
-/
import BraceMarkup.Decimal

namespace BraceMarkup

/-- The natural number nearest to `num / den`; of two the even one. -/
def roundQuotient (num den : Nat) : Nat :=
  let q := num / den
  let r := num % den
  if den < 2 * r ∨ (2 * r = den ∧ q % 2 = 1) then q + 1 else q

/-- The exponent of the largest power of two that is at most `num / den`. -/
def binaryMagnitude (num den : Nat) : Int :=
  let e : Int := num.log2 - den.log2
  let reached : Bool :=
    match e with
    | .ofNat n => den * Nat.pow 2 n ≤ num
    | .negSucc n => den ≤ num * Nat.pow 2 (n + 1)
  if reached then e else e - 1

/-- The encoding of infinity. -/
def infinityBits : Nat := 0x7FF * Nat.pow 2 52

/-- The encoding of the double nearest to `num / den`. -/
def nearestBits (num den : Nat) : Nat :=
  if num = 0 then 0
  else
    let q := max (binaryMagnitude num den - 52) (-1074)
    let m :=
      match q with
      | .ofNat n => roundQuotient num (den * Nat.pow 2 n)
      | .negSucc n => roundQuotient (num * Nat.pow 2 (n + 1)) den
    min ((q + 1074).toNat * Nat.pow 2 52 + m) infinityBits

/-- The double nearest to a decimal number.  A significand of `width` binary digits has at most as
    many decimal digits, and at least a quarter of them: this tells apart the numbers that are far
    too small or too large without working them out. -/
def Decimal.toFloat (d : Decimal) : Float :=
  let width : Int := d.significand.log2 + 1
  let bits :=
    if d.significand = 0 ∨ d.exponent + width < -400 then 0
    else if 400 < d.exponent + width / 4 then infinityBits
    else
      match d.exponent with
      | .ofNat n => nearestBits (d.significand * Nat.pow 10 n) 1
      | .negSucc n => nearestBits d.significand (Nat.pow 10 (n + 1))
  Float.ofBits bits.toUInt64

end BraceMarkup
