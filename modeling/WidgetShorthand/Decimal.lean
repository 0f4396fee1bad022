/-!
# Decimals of binary fractions

A double-precision number is taken apart into a sign, a significand and an exponent of two, and
written as a quotient of natural numbers. Everything that prints a number works on this exact value.
It is printed with two places after the point, or with the fewest digits that still read back as the
same number.
-/

namespace WidgetShorthand.Decimal

/-- The number `significand * 2 ^ exponent`, with a sign that zero has too. -/
structure Binary where
  negative : Bool
  significand : Nat
  exponent : Int
  /-- Whether the next smaller number is only half as far away as the next greater one. -/
  narrowBelow : Bool

/-- The exact value of a finite number. -/
def Binary.ofFloat (x : Float) : Binary :=
  let bits : Nat := x.toBits.toNat
  let fraction : Nat := bits % Nat.pow 2 52
  let field : Nat := bits / Nat.pow 2 52 % Nat.pow 2 11
  let negative : Bool := bits / Nat.pow 2 63 == 1
  if field = 0 then ⟨negative, fraction, -1074, false⟩
  else ⟨negative, Nat.pow 2 52 + fraction, (field : Int) - 1075, fraction == 0 && field > 1⟩

/-- Numerator and denominator of `n * 2 ^ e`. -/
def ratio (n : Nat) (e : Int) : Nat × Nat :=
  (n * Nat.pow 2 e.toNat, Nat.pow 2 (-e).toNat)

/-- The integer nearest to a quotient; of two at the same distance the even one. -/
def roundDiv (num den : Nat) : Nat :=
  let q := num / den
  let twice := 2 * (num % den)
  if twice < den || (twice == den && q % 2 == 0) then q else q + 1

/-! ## Two places after the point -/

/-- A number of hundredths, written with a point and two places. -/
def showHundredths (n : Nat) : String :=
  let rest := n % 100
  let pad := if rest < 10 then "0" else ""
  toString (n / 100) ++ "." ++ pad ++ toString rest

/-- `x` rounded to two places after the point. The exact binary value is rounded, and a value right
in the middle goes to the even neighbour; the sign of a negative number stays when it rounds to
zero. -/
def showFixed (x : Float) : String :=
  let b := Binary.ofFloat x
  let (num, den) := ratio b.significand b.exponent
  let text := showHundredths (roundDiv (100 * num) den)
  if b.negative then "-" ++ text else text

/-! ## As few digits as possible

The decimal with the fewest digits that still reads back as the same number; of several such
decimals the one nearest to the number. It is written without an exponent, however long that makes
it, and without a point when it is whole.

The search runs over decimal grids from coarse to fine. If a point of a grid lies in the interval of
reals that round to the number, so does one of the number's two neighbours on that grid, so only
these two are tried.
-/

/-- The point of the grid `10 ^ k` nearest to the number, if it reads back as the number. -/
def onGrid? (b : Binary) (k : Int) : Option Nat :=
  -- In units of a quarter of the last place, all over one denominator.
  let (value, den) := ratio (4 * b.significand) (b.exponent - 2)
  let (low, _) := ratio (4 * b.significand - if b.narrowBelow then 1 else 2) (b.exponent - 2)
  let (high, _) := ratio (4 * b.significand + 2) (b.exponent - 2)
  let up := Nat.pow 10 (-k).toNat
  let unit := den * Nat.pow 10 k.toNat
  let closed := b.significand % 2 == 0
  let readsBack (d : Nat) : Bool :=
    if closed then low * up ≤ d * unit && d * unit ≤ high * up
    else low * up < d * unit && d * unit < high * up
  let nearest := roundDiv (value * up) unit
  let below := value * up / unit
  if readsBack nearest then some nearest
  else if readsBack below then some below
  else if readsBack (below + 1) then some (below + 1)
  else none

/-- The exponents of the grids that a double-precision number can need, coarse ones first. -/
def grids : List Int :=
  (List.range 634).map fun i => Int.subNatNat 309 i

/-- Digits and exponent of ten of the shortest decimal of a positive number. -/
def shortest (b : Binary) : Nat × Int :=
  (grids.findSome? fun k => (onGrid? b k).map (·, k)).getD (0, 0)

/-- The decimal `digits * 10 ^ k` written out without an exponent. -/
def positional (digits : Nat) (k : Int) : String :=
  let ds := Nat.toDigits 10 digits
  let places := (-k).toNat
  if places = 0 then String.ofList (ds ++ List.replicate k.toNat '0')
  else
    let ds := List.replicate (places + 1 - ds.length) '0' ++ ds
    let whole := ds.length - places
    String.ofList (ds.take whole ++ '.' :: ds.drop whole)

/-- The shortest decimal that reads back as `x`. -/
def showShortest (x : Float) : String :=
  let b := Binary.ofFloat x
  let text := if b.significand = 0 then "0" else
    let (digits, k) := shortest b
    positional digits k
  if b.negative then "-" ++ text else text

end WidgetShorthand.Decimal
