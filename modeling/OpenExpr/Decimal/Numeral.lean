import OpenExpr.Decimal.Double

namespace OpenExpr.Decimal

/-- What a numeral says: a number with finitely many decimals, or one of the two
that have no numeral of digits. -/
inductive Numeral where
  | finite (negative : Bool) (digits : Nat) (exponent : Int)
  | infinite (negative : Bool)
  | notANumber (negative : Bool)
deriving DecidableEq, Repr

namespace Numeral

def digitValue (c : Char) : Nat :=
  c.toNat - '0'.toNat

/-- The number that a list of decimal digits writes. -/
def ofDigits (cs : List Char) : Nat :=
  cs.foldl (fun n c => 10 * n + digitValue c) 0

/-- Splits off a sign. The flag says whether it is a minus. -/
def splitSign : List Char → Bool × List Char
  | '+' :: rest => (false, rest)
  | '-' :: rest => (true, rest)
  | rest => (false, rest)

/-- Splits a text into the digits it starts with and the rest. -/
def splitDigits (cs : List Char) : List Char × List Char :=
  (cs.takeWhile Char.isDigit, cs.dropWhile Char.isDigit)

/-- Splits off the digits after a point, if there is a point. -/
def splitFraction : List Char → List Char × List Char
  | '.' :: rest => splitDigits rest
  | rest => ([], rest)

/-- The exponent that ends a numeral: nothing, or an `e` with at least one digit
and perhaps a sign. -/
def exponent? : List Char → Option Int
  | [] => some 0
  | c :: rest =>
    if c = 'e' ∨ c = 'E' then
      let (negative, digits) := splitSign rest
      if digits.isEmpty || !digits.all Char.isDigit then none
      else some (if negative then -(ofDigits digits : Int) else ofDigits digits)
    else none

/-- A numeral of digits with an optional point and exponent. There is a digit
before or after the point. -/
def digits? (negative : Bool) (cs : List Char) : Option Numeral :=
  let (whole, rest) := splitDigits cs
  let (fraction, rest) := splitFraction rest
  if whole.isEmpty && fraction.isEmpty then none
  else (exponent? rest).map fun e =>
    .finite negative (ofDigits (whole ++ fraction)) (e - fraction.length)

/-- Reads a numeral: an optional sign before digits or before one of the words
for infinity and for no number, in letters of either case. -/
def ofText? (text : String) : Option Numeral :=
  let (negative, rest) := splitSign text.toList
  let word := rest.map Char.toLower
  if word = ['i', 'n', 'f'] ∨ word = ['i', 'n', 'f', 'i', 'n', 'i', 't', 'y'] then
    some (.infinite negative)
  else if word = ['n', 'a', 'n'] then some (.notANumber negative)
  else digits? negative rest

/-- The bits of the floating point number nearest to `n` times ten to the power
of `e`. Powers beyond the range of those numbers are not computed: such a
product is smaller than half of the least number, or larger than the greatest. -/
def nearestBits (n : Nat) (e : Int) : Nat :=
  if n = 0 then 0
  else
    let size : Int := e + (Nat.toDigits 10 n).length
    if size < -330 then 0
    else if 330 < size then Double.infinityBits
    else Double.nearestBits (n * tenTo e.toNat) (tenTo (-e).toNat)

/-- The floating point number nearest to a numeral. -/
def toFloat : Numeral → Float
  | finite negative n e => Double.build negative (nearestBits n e)
  | infinite negative => Double.build negative Double.infinityBits
  | notANumber negative => Double.build negative (Double.infinityBits + twoTo 51)

end Numeral

/-- The floating point number that a text writes. -/
def float? (text : String) : Option Float :=
  (Numeral.ofText? text).map Numeral.toFloat

end OpenExpr.Decimal
