import SchemeLexer.Decimal.Binary
/-!
# Shortest decimals

The fewest decimal digits that read back as a given binary number. The reals that round to
`m * 2 ^ q` form an interval, which holds its ends exactly if `m` is even. For one digit, two
digits and so on the two neighbours of the number on the grid of that many digits are tested
against the interval in exact arithmetic; the first grid with a hit wins, of two hits the nearer,
and of two equally near the even one. Seventeen digits always suffice.
-/

namespace SchemeLexer.Binary64

structure Ratio where
  num : Nat
  den : Nat
  deriving DecidableEq, Repr

def Ratio.ofBinary (m : Nat) (q : Int) : Ratio :=
  if q < 0 then ⟨m, pow2 q.natAbs⟩ else ⟨m * pow2 q.natAbs, 1⟩

def Ratio.ofDecimal (m : Nat) (e : Int) : Ratio :=
  if e < 0 then ⟨m, pow10 e.natAbs⟩ else ⟨m * pow10 e.natAbs, 1⟩

def Ratio.lt (a b : Ratio) : Bool := a.num * b.den < b.num * a.den

def Ratio.le (a b : Ratio) : Bool := a.num * b.den ≤ b.num * a.den

/-- The reals that round to one binary number. -/
structure Interval where
  low : Ratio
  high : Ratio
  closed : Bool
  deriving DecidableEq, Repr

/-- The interval of `m * 2 ^ q`. It reaches half a step to either side, and a quarter of a step
downwards where the numbers below lie twice as close. -/
def Interval.of (m : Nat) (q : Int) : Interval :=
  let low :=
    if m = pow2 (precision - 1) ∧ minExponent < q then Ratio.ofBinary (4 * m - 1) (q - 2)
    else Ratio.ofBinary (2 * m - 1) (q - 1)
  ⟨low, Ratio.ofBinary (2 * m + 1) (q - 1), m % 2 = 0⟩

def Interval.contains (i : Interval) (r : Ratio) : Bool :=
  if i.closed then i.low.le r && r.le i.high else i.low.lt r && r.lt i.high

/-- The exponent `k` with `10 ^ (k - 1) ≤ r < 10 ^ k`. -/
def Ratio.magnitude (r : Ratio) : Int :=
  if r.den ≤ r.num then decimalLength (r.num / r.den)
  else 1 - (decimalLength ((r.den - 1) / r.num) : Int)

/-- The digits of a decimal fraction `0.ddd * 10 ^ point`. -/
structure Digits where
  digits : Nat
  point : Int
  deriving DecidableEq, Repr

/-- The greatest `n` with `n * 10 ^ e ≤ r`, together with the comparison of twice the remainder
with a whole step. -/
def Ratio.floorOn (r : Ratio) (e : Int) : Nat × Ordering :=
  let (num, den) :=
    if e < 0 then (r.num * pow10 e.natAbs, r.den) else (r.num, r.den * pow10 e.natAbs)
  (num / den, compare (2 * (num % den)) den)

def Interval.best? (i : Interval) (r : Ratio) (e : Int) : Option Nat :=
  let (below, side) := r.floorOn e
  let hitsBelow := i.contains (.ofDecimal below e)
  let hitsAbove := i.contains (.ofDecimal (below + 1) e)
  match hitsBelow, hitsAbove with
  | true, true =>
      match side with
      | .lt => some below
      | .gt => some (below + 1)
      | .eq => some (below + below % 2)
  | true, false => some below
  | false, true => some (below + 1)
  | false, false => none

/-- Tries the grids of `count`, `count + 1`, … digits, `tries` of them. -/
def Interval.search (i : Interval) (r : Ratio) (point : Int) : Nat → Nat → Option (Nat × Int)
  | _, 0 => none
  | count, tries + 1 =>
      match i.best? r (point - count) with
      | some n => some (n, point - count)
      | none => i.search r point (count + 1) tries

def dropZeros : Nat → Nat → Int → Nat × Int
  | 0, n, e => (n, e)
  | limit + 1, n, e => if n % 10 = 0 && n ≠ 0 then dropZeros limit (n / 10) (e + 1) else (n, e)

/-- The fewest digits that read back as `m * 2 ^ q`, for `m` positive, with the place of the
point before the first of them. -/
def shortest (m : Nat) (q : Int) : Digits :=
  let r := Ratio.ofBinary m q
  -- seventeen digits always suffice
  let (n, e) := ((Interval.of m q).search r r.magnitude 1 17).getD (m, q)
  let (n, e) := dropZeros 17 n e
  ⟨n, e + decimalLength n⟩

end SchemeLexer.Binary64
