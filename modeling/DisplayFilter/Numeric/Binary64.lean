/-!
# Binary floating-point numbers

The numbers of the 64-bit binary format, as a sign, an integer significand and a power of two.
`Binary64.ofRatio` rounds a quotient to the nearest of them, a tie to the one with the even significand.
-/

namespace DisplayFilter

/-- A number of the 64-bit binary format. A finite one is `significand * 2 ^ exponent`, with a
significand of 53 bits or with the least exponent. -/
inductive Binary64 where
  | finite (negative : Bool) (significand : Nat) (exponent : Int)
  | infinite (negative : Bool)
  | nan
  deriving DecidableEq, Repr, Inhabited

def twoTo (exponent : Nat) : Nat :=
  Nat.pow 2 exponent

def tenTo (exponent : Nat) : Nat :=
  Nat.pow 10 exponent

namespace Binary64

def minExponent : Int := -1074

def maxExponent : Int := 971

/-- The quotient rounded to the nearest natural number, a tie to the even one. -/
def roundQuotient (numerator denominator : Nat) : Nat :=
  let quotient := numerator / denominator
  let twice := 2 * (numerator % denominator)
  if denominator < twice || (twice == denominator && quotient % 2 == 1) then quotient + 1
  else quotient

/-- The quotient divided by a power of two, as numerator and denominator. -/
def scaleBy (numerator denominator : Nat) (exponent : Int) : Nat × Nat :=
  (numerator * twoTo (-exponent).toNat, denominator * twoTo exponent.toNat)

/-- The exponent with which the significand of a positive quotient has 53 bits. -/
def exponentOf (numerator denominator : Nat) : Int :=
  let guess : Int := (numerator.log2 : Int) - (denominator.log2 : Int) - 53
  let (scaled, unit) := scaleBy numerator denominator guess
  max minExponent (if scaled < unit * twoTo 53 then guess else guess + 1)

/-- The number nearest to a quotient of natural numbers, with a sign. -/
def ofRatio (negative : Bool) (numerator denominator : Nat) : Binary64 :=
  if numerator = 0 then .finite negative 0 minExponent
  else
    let exponent := exponentOf numerator denominator
    let (scaled, unit) := scaleBy numerator denominator exponent
    let rounded := roundQuotient scaled unit
    let (significand, exponent) :=
      if rounded = twoTo 53 then (twoTo 52, exponent + 1) else (rounded, exponent)
    if maxExponent < exponent then .infinite negative else .finite negative significand exponent

/-- The number nearest to `digits * 10 ^ scale`, with a sign. -/
def ofDecimal (negative : Bool) (digits : Nat) (scale : Int) : Binary64 :=
  ofRatio negative (digits * tenTo scale.toNat) (tenTo (-scale).toNat)

/-- The size of a finite number, as numerator and denominator. -/
def ratio (significand : Nat) (exponent : Int) : Nat × Nat :=
  (significand * twoTo exponent.toNat, twoTo (-exponent).toNat)

/-- The number nearest to a natural number. -/
def ofNat (n : Nat) : Binary64 :=
  ofRatio false n 1

/-- The number of this size with a sign. -/
def withSign (number : Binary64) (negative : Bool) : Binary64 :=
  match number with
  | .finite _ significand exponent => .finite negative significand exponent
  | .infinite _ => .infinite negative
  | .nan => .nan

/-- The rounded sum of two sizes. -/
def sizeSum : Binary64 → Binary64 → Binary64
  | .finite _ first exponent, .finite _ second other =>
    let (numerator, denominator) := ratio first exponent
    let (addend, unit) := ratio second other
    ofRatio false (numerator * unit + addend * denominator) (denominator * unit)
  | _, _ => .infinite false

/-- The rounded product of two sizes. -/
def sizeProduct : Binary64 → Binary64 → Binary64
  | .finite _ first exponent, .finite _ second other =>
    let (numerator, denominator) := ratio first exponent
    let (factor, unit) := ratio second other
    ofRatio false (numerator * factor) (denominator * unit)
  | _, _ => .infinite false

/-- The integer a number equals. -/
def toInt? : Binary64 → Option Int
  | .finite negative significand exponent =>
    let (numerator, denominator) := ratio significand exponent
    if numerator % denominator = 0 then
      let size : Int := (numerator / denominator : Nat)
      some (if negative then -size else size)
    else none
  | _ => none

/-- Either of the two zeros. -/
def isZero : Binary64 → Bool
  | .finite _ 0 _ => true
  | _ => false

end Binary64

end DisplayFilter
