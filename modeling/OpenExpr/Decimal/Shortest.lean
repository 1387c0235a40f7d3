import OpenExpr.Decimal.Double

namespace OpenExpr.Decimal

/-- The real numbers that round to `m` times two to the power of `q`, for
positive `m`. They lie around it up to half of the last place, and up to a quarter
below it where the numbers below are twice as dense. Both ends belong to
them exactly if `m` is even. All is counted in quarters of the last place. -/
structure Interval where
  low : Nat
  high : Nat
  closed : Bool
deriving DecidableEq, Repr

namespace Interval

def around (m : Nat) (q : Int) : Interval :=
  let denseBelow := m = twoTo 52 ∧ Double.minExponent < q
  { low := if denseBelow then 4 * m - 1 else 4 * m - 2
    high := 4 * m + 2
    closed := m % 2 = 0 }

/-- Whether `x / u` lies in the interval, for positive `u`. -/
def contains (i : Interval) (u x : Nat) : Bool :=
  if i.closed then decide (i.low * u ≤ x) && decide (x ≤ i.high * u)
  else decide (i.low * u < x) && decide (x < i.high * u)

end Interval

/-- The multiple of ten to the power of `e` that is nearest to `m` times two to
the power of `q` among those that round to it, as a factor of the power. Of two
equally near the greater is taken. -/
def onGrid? (m : Nat) (q e : Int) : Option Nat :=
  -- both sides in whole units: `u` of them make a quarter of the last place, `g` a step of the grid
  let u := twoTo (q - 2).toNat * tenTo (-e).toNat
  let g := tenTo e.toNat * twoTo (2 - q).toNat
  let v := 4 * m * u
  let i := Interval.around m q
  let below := v / g
  let above := below + 1
  let belowFits := i.contains u (below * g)
  let aboveFits := i.contains u (above * g)
  if belowFits && (!aboveFits || decide (v - below * g < above * g - v)) then some below
  else if aboveFits then some above
  else none

/-- The coarsest power of ten with a multiple that rounds to `m` times two to the
power of `q`, and the factor, looking at `steps` exponents from `e` downwards.
After those it falls back to the exponent `q`, at which a number with a negative
`q` is written out in full. -/
def coarsest (m : Nat) (q e : Int) : Nat → Nat × Int
  | 0 => if 0 ≤ q then (m * twoTo q.toNat, 0) else (m * Nat.pow 5 (-q).toNat, q)
  | steps + 1 =>
    match onGrid? m q e with
    | some n => (n, e)
    | none => coarsest m q (e - 1) steps

/-- The decimal with the fewest digits that rounds to `m` times two to the power
of `q`, for positive `m`: a factor and the power of ten that goes with it. The
search starts above the number and so passes the coarser powers first. -/
def shortest (m : Nat) (q : Int) : Nat × Int :=
  let start := ((m.log2 + q + 1) * 30103).fdiv 100000 + 1
  coarsest m q start (start - min q 0 + 1).toNat

/-- Writes `n` times ten to the power of `e` with digits and a point, without
an exponent and without a point where nothing follows it. -/
def positional (n : Nat) (e : Int) : String :=
  let digits := Nat.toDigits 10 n
  let places := (-e).toNat
  if 0 ≤ e then String.ofList (digits ++ List.replicate e.toNat '0')
  else
    let padded := List.replicate (places + 1 - digits.length) '0' ++ digits
    String.ofList (padded.take (padded.length - places) ++ '.' :: padded.drop (padded.length - places))

/-- The shortest text from which a number can be read back. -/
def display (x : Float) : String :=
  match Double.ofFloat x with
  | .notANumber => "NaN"
  | .infinite negative => if negative then "-inf" else "inf"
  | .finite negative m q =>
    let text := if m = 0 then "0" else positional (shortest m q).1 (shortest m q).2
    if negative then "-" ++ text else text

end OpenExpr.Decimal
