/-!
# Binary floating-point numbers

Numbers of 64 bits as exact data: a sign, a significand below 2^53 and an exponent of two no less
than -1074. `Binary64.ofRatio` rounds a fraction to the nearest of them, and a tie to the one with
an even significand.
-/

namespace SchemeLexer

/-- A binary floating-point number of 64 bits. A finite one is `significand * 2 ^ exponent`, with
a significand of exactly 53 bits unless the exponent is the least one. -/
inductive Binary64 where
  | nan
  | infinite (negative : Bool)
  | finite (negative : Bool) (significand : Nat) (exponent : Int)
  deriving DecidableEq, Repr

namespace Binary64

def pow2 (n : Nat) : Nat := Nat.pow 2 n

def pow10 (n : Nat) : Nat := Nat.pow 10 n

def precision : Nat := 53

def minExponent : Int := -1074

def maxExponent : Int := 971

def zero (negative : Bool) : Binary64 := .finite negative 0 minExponent

def bitLength (n : Nat) : Nat :=
  if n = 0 then 0 else n.log2 + 1

/-- The fraction `num / den` over `2 ^ exponent`, as a numerator and a denominator. -/
def scaled (num den : Nat) (exponent : Int) : Nat × Nat :=
  if exponent < 0 then (num * pow2 exponent.natAbs, den) else (num, den * pow2 exponent.natAbs)

def roundEven (num den : Nat) : Nat :=
  let quotient := num / den
  let twice := 2 * (num % den)
  if twice < den then quotient
  else if den < twice then quotient + 1
  else quotient + quotient % 2

/-- The exponent that gives a positive fraction a quotient of 53 bits, or the least exponent where
that one is lower. -/
def exponentFor (num den : Nat) : Int :=
  -- the quotient has one bit more or less than the lengths say
  let guess : Int := (bitLength num : Int) - bitLength den - precision
  let (n, d) := scaled num den guess
  max minExponent (if n / d < pow2 precision then guess else guess + 1)

/-- The number nearest to a fraction. A fraction that rounds to 2^1024 or more is infinite. -/
def ofRatio (negative : Bool) (num den : Nat) : Binary64 :=
  if num = 0 then zero negative
  else
    let exponent := exponentFor num den
    let (n, d) := scaled num den exponent
    let significand := roundEven n d
    -- rounding up may add a bit
    let (significand, exponent) :=
      if significand = pow2 precision then (pow2 (precision - 1), exponent + 1)
      else (significand, exponent)
    if maxExponent < exponent then .infinite negative
    else .finite negative significand exponent

def decimalLength (n : Nat) : Nat :=
  if n = 0 then 0 else (Nat.toDigits 10 n).length

/-- The number nearest to `digits * 10 ^ exponent`. Magnitudes from 10^310 up are infinite and
those below 10^-330 are zero, so no power beyond these is computed. -/
def ofDecimal (negative : Bool) (digits : Nat) (exponent : Int) : Binary64 :=
  let magnitude := decimalLength digits + exponent
  if digits = 0 then zero negative
  else if 310 < magnitude then .infinite negative
  else if magnitude < -330 then zero negative
  else if exponent < 0 then ofRatio negative digits (pow10 exponent.natAbs)
  else ofRatio negative (digits * pow10 exponent.natAbs) 1

end Binary64

end SchemeLexer
