import SchemeLexer.Decimal.Shortest
/-!
# Text of binary floating-point numbers

A number is written with the fewest digits that read back, positionally if its decimal exponent
lies from -4 to 15 and in scientific notation otherwise.
-/

namespace SchemeLexer.Binary64

/-- How floating-point numbers are written: the least and the greatest decimal exponent in
positional notation, what follows an integral number there, the least number of digits of an
exponent, and the words for what is not finite. -/
structure Format where
  leastPositional : Int
  greatestPositional : Int
  integral : String
  exponentWidth : Nat
  nan : String
  infinite : String

/-- Numbers are written positionally for exponents from -4 to 15, integral ones with `.0`, and
exponents have a sign and at least two digits. -/
def format : Format := ⟨-4, 15, ".0", 2, "nan", "inf"⟩

def Format.exponent (f : Format) (e : Int) : String :=
  let digits := Nat.toDigits 10 e.natAbs
  (if e < 0 then "-" else "+")
    ++ String.ofList (List.replicate (f.exponentWidth - digits.length) '0' ++ digits)

def Format.positional (f : Format) (digits : List Char) (point : Int) : String :=
  if point ≤ 0 then
    "0." ++ String.ofList (List.replicate point.natAbs '0' ++ digits)
  else
    let places := point.natAbs
    if digits.length ≤ places then
      String.ofList (digits ++ List.replicate (places - digits.length) '0') ++ f.integral
    else
      String.ofList (digits.take places) ++ "." ++ String.ofList (digits.drop places)

def Format.scientific (f : Format) (digits : List Char) (point : Int) : String :=
  let fraction := digits.drop 1
  String.ofList (digits.take 1)
    ++ (if fraction.isEmpty then "" else "." ++ String.ofList fraction)
    ++ "e" ++ f.exponent (point - 1)

def Format.text (f : Format) : Binary64 → String
  | .nan => f.nan
  | .infinite negative => (if negative then "-" else "") ++ f.infinite
  | .finite negative m q =>
      let magnitude :=
        if m = 0 then "0" ++ f.integral
        else
          let shortest := shortest m q
          let digits := Nat.toDigits 10 shortest.digits
          if f.leastPositional ≤ shortest.point - 1 ∧
              shortest.point - 1 ≤ f.greatestPositional then
            f.positional digits shortest.point
          else
            f.scientific digits shortest.point
      (if negative then "-" else "") ++ magnitude

def text (x : Binary64) : String := format.text x

end SchemeLexer.Binary64
