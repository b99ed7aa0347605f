import DisplayFilter.Numeric.Binary64
/-!
# Shortest decimals

A number is written with the fewest digits that read back as the same number; of several such decimals
the nearest is taken, and of two equally near ones the even one. Numbers from a ten-thousandth up to ten
to the sixteenth are written out, with one decimal at least, all others with an exponent.
-/

namespace DisplayFilter

/-- The decimal `digits * 10 ^ scale`. -/
structure Decimal where
  digits : Nat
  scale : Int
  deriving DecidableEq, Repr, Inhabited

namespace Decimal

/-- The count of decimal digits of a positive number, and zero for zero. -/
def digitCount (n : Nat) : Nat :=
  if n = 0 then 0 else (Nat.toDigits 10 n).length

/-- The place of the leading digit of a positive quotient: nought for the ones. -/
def leadingPlace (numerator denominator : Nat) : Int :=
  if denominator ≤ numerator then (digitCount (numerator / denominator) : Int) - 1
  else -(digitCount ((denominator - 1) / numerator) : Int)

/-- Which of a decimal and its upper neighbour stands for the number: those that read back as it, the
nearer of two, the even one of two equally near. -/
def choose? (significand : Nat) (exponent : Int) (lower : Decimal) : Option Decimal :=
  let upper : Decimal := ⟨lower.digits + 1, lower.scale⟩
  let readsBack (d : Decimal) : Bool :=
    Binary64.ofDecimal false d.digits d.scale == .finite false significand exponent
  match readsBack lower, readsBack upper with
  | false, false => none
  | true, false => some lower
  | false, true => some upper
  | true, true =>
    let (numerator, denominator) := Binary64.ratio significand exponent
    let exact := 2 * numerator * tenTo (-lower.scale).toNat
    let middle := (2 * lower.digits + 1) * tenTo lower.scale.toNat * denominator
    if exact < middle || (exact == middle && lower.digits % 2 == 0) then some lower else some upper

/-- The decimal of a positive finite number that has so many digits and lies at or just below it. -/
def floor (significand : Nat) (exponent : Int) (count : Nat) : Decimal :=
  let (numerator, denominator) := Binary64.ratio significand exponent
  let scale := leadingPlace numerator denominator + 1 - count
  ⟨numerator * tenTo (-scale).toNat / (denominator * tenTo scale.toNat), scale⟩

/-- The shortest decimal of a positive finite number. Seventeen digits always read back. -/
def shortest (significand : Nat) (exponent : Int) : Decimal :=
  ((List.range 17).findSome? fun short =>
    choose? significand exponent (floor significand exponent (short + 1))).getD
      (floor significand exponent 17)

/-- The digits of a decimal without zeros at the end, and the count of digits before the point. -/
def layout (decimal : Decimal) : List Char × Int :=
  let written := Nat.toDigits 10 decimal.digits
  ((written.reverse.dropWhile (· == '0')).reverse, decimal.scale + written.length)

/-- An exponent has a sign and two digits at least. -/
def exponentText (exponent : Int) : List Char :=
  let digits := Nat.toDigits 10 exponent.natAbs
  (if exponent < 0 then '-' else '+') :: (if digits.length < 2 then '0' :: digits else digits)

/-- Digits with a point after the first `place` of them, or with an exponent. -/
def place (digits : List Char) (point : Int) : List Char :=
  if -4 < point && point ≤ 0 then '0' :: '.' :: List.replicate (-point).toNat '0' ++ digits
  else if 0 < point && point ≤ 16 then
    let count := point.toNat
    let whole := digits.take count ++ List.replicate (count - digits.length) '0'
    let fraction := digits.drop count
    whole ++ '.' :: (if fraction.isEmpty then ['0'] else fraction)
  else
    let fraction := digits.drop 1
    digits.take 1 ++ (if fraction.isEmpty then [] else '.' :: fraction) ++
      'e' :: exponentText (point - 1)

end Decimal

namespace Binary64

def text : Binary64 → String
  | .nan => "nan"
  | .infinite negative => if negative then "-inf" else "inf"
  | .finite negative significand exponent =>
    let size :=
      if significand = 0 then ['0', '.', '0']
      else
        let (digits, point) := (Decimal.shortest significand exponent).layout
        Decimal.place digits point
    String.ofList (if negative then '-' :: size else size)

end Binary64

end DisplayFilter
