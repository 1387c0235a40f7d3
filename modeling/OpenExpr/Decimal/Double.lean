namespace OpenExpr.Decimal

def twoTo (k : Nat) : Nat :=
  Nat.pow 2 k

def tenTo (k : Nat) : Nat :=
  Nat.pow 10 k

/-- A floating point number of 64 bits, taken apart. A finite one is `m` times
two to the power of `q`. -/
inductive Double where
  | finite (negative : Bool) (m : Nat) (q : Int)
  | infinite (negative : Bool)
  | notANumber
deriving DecidableEq, Repr

namespace Double

/-- The exponent of the last place of the smallest numbers. -/
def minExponent : Int := -1074

/-- Takes a number apart along its bits: one for the sign, eleven for the
exponent and the rest for the fraction, whose leading one is left out unless
the exponent is the least. -/
def ofFloat (x : Float) : Double :=
  let bits := x.toBits.toNat
  let negative := decide (twoTo 63 ≤ bits)
  let exponent : Nat := bits / twoTo 52 % twoTo 11
  let fraction : Nat := bits % twoTo 52
  if exponent = twoTo 11 - 1 then
    if fraction = 0 then .infinite negative else .notANumber
  else if exponent = 0 then .finite negative fraction minExponent
  else .finite negative (twoTo 52 + fraction) (minExponent + (exponent - 1 : Nat))

/-- The whole number nearest to `n / d`, the even one of two that are equally near. -/
def roundHalfEven (n d : Nat) : Nat :=
  let r := n % d
  if 2 * r < d ∨ (2 * r = d ∧ n / d % 2 = 0) then n / d else n / d + 1

/-- The bits of positive infinity. -/
def infinityBits : Nat := (twoTo 11 - 1) * twoTo 52

/-- The bits of the number nearest to `n / d`, for positive `n` and `d`. The
exponent is the one that leaves 53 bits before the point, or the least there is.
Where rounding needs one bit more, the sum carries it into the exponent. -/
def nearestBits (n d : Nat) : Nat :=
  let guess : Int := n.log2 - d.log2
  let reached := decide (d * twoTo guess.toNat ≤ n * twoTo (-guess).toNat)
  let top := if reached then guess else guess - 1
  let q := max (top - 52) minExponent
  let m := roundHalfEven (n * twoTo (-q).toNat) (d * twoTo q.toNat)
  min ((q - minExponent).toNat * twoTo 52 + m) infinityBits

/-- The number with the given sign and bits. -/
def build (negative : Bool) (bits : Nat) : Float :=
  Float.ofBits (UInt64.ofNat (if negative then twoTo 63 + bits else bits))

/-- The natural number that `x` is, if it is one. -/
def toNat? : Double → Option Nat
  | finite negative m q =>
    if negative && m != 0 then none
    else if 0 ≤ q then some (m * twoTo q.toNat)
    else if m % twoTo (-q).toNat = 0 then some (m / twoTo (-q).toNat)
    else none
  | infinite _ | notANumber => none

end Double

end OpenExpr.Decimal
