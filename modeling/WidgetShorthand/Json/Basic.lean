import WidgetShorthand.Text.Basic

/-!
# JSON values

The abstract syntax of JSON as a strict reader sees it. Objects keep the order of their members and
all repetitions, numbers keep their spelling, and a string may have no text: an escape can name half
of a surrogate pair, which only a value that nobody looks at is allowed to do.
-/

namespace WidgetShorthand

/-- The power of ten behind a number. -/
structure Json.Exponent where
  negative : Bool
  digits : List Char
  deriving DecidableEq, Repr

/-- A number as it is spelled: digits before the point, digits behind it, and an exponent. -/
structure Json.Number where
  negative : Bool
  whole : List Char
  fraction : List Char
  exponent : Option Json.Exponent
  deriving DecidableEq, Repr

mutual

/-- A JSON value. -/
inductive Json where
  | null
  | bool (value : Bool)
  | number (spelling : Json.Number)
  | string (text : Option String)
  | array (items : List Json)
  | object (members : List Json.Member)

/-- A member of an object. -/
structure Json.Member where
  key : Option String
  value : Json

end

namespace Json

/-- The largest unsigned number of 64 bits. -/
def maxWord : Nat :=
  UInt64.size - 1

/-- The spelling of a natural number. -/
def Number.ofNat (n : Nat) : Number :=
  ⟨false, Nat.toDigits 10 n, [], none⟩

/-- The natural number that is meant, when it is spelled as one and does not exceed `limit`. -/
def Number.toNat? (limit : Nat) (n : Number) : Option Nat :=
  if n.negative || !n.fraction.isEmpty || n.exponent.isSome then none
  else
    let value := Text.decimalValue n.whole
    if value ≤ limit then some value else none

/-- Reads digits behind `value` as long as the result fits a word, and gives the digits left
over. -/
def takeDigits (value : Nat) : List Char → Nat × List Char
  | [] => (value, [])
  | c :: r =>
    let next := 10 * value + Text.digitValue c
    if next ≤ maxWord then takeDigits next r else (value, c :: r)

/-- Divides by `10 ^ 308` again and again; zero stays as it is. -/
def scaleDown : Nat → Float → Float
  | 0, x => x
  | n + 1, x => if x == 0 then x else scaleDown n (x / 1e308)

def powerOfTen (n : Nat) : Float :=
  OfScientific.ofScientific 1 false n

/-- `x * 10 ^ e` by one multiplication or by divisions, each rounded on its own; none on
overflow. -/
def scale (x : Float) (e : Int) : Option Float :=
  if 0 ≤ e then
    if e ≤ 308 then
      let y := x * powerOfTen e.toNat
      if y.isInf then none else some y
    else if x == 0 then some x
    else none
  else
    let n := (-e).toNat
    let y := scaleDown (n / 308 - if n % 308 = 0 then 1 else 0) x
    some (y / powerOfTen (if n % 308 = 0 then 308 else n % 308))

/-- The double-precision number that is meant: the leading digits as far as they fit a word, scaled
by a power of ten. Spellings beyond the range have no value. -/
def Number.toFloat? (n : Number) : Option Float :=
  let (significand, skipped) := takeDigits 0 n.whole
  let (significand, unread) := takeDigits significand n.fraction
  let start : Int := skipped.length - (n.fraction.length - unread.length : Nat)
  let magnitude :=
    match n.exponent with
    | none => scale (Float.ofNat significand) start
    | some e =>
      let power := Text.decimalValue e.digits
      if power ≤ 0x7fffffff then
        scale (Float.ofNat significand) (if e.negative then start - power else start + power)
      else if significand ≠ 0 && !e.negative then none
      else some 0.0
  magnitude.map fun x => if n.negative then -x else x

/-- Whether a number has a value at all. An integer that fits a word is read as one, and every other
number in double precision. -/
def Number.isInRange (n : Number) : Bool :=
  (n.toNat? maxWord).isSome || n.toFloat?.isSome

/-- A JSON string that holds a text. -/
def ofString (s : String) : Json :=
  .string (some s)

def ofNat (n : Nat) : Json :=
  .number (.ofNat n)

/-- The member that stores a value under a key. -/
def field (key : String) (value : Json) : Member :=
  ⟨some key, value⟩

/-- The member of a tagged value: an object with this one member. -/
def tagged (tag : String) (value : Json) : Json :=
  .object [field tag value]

end Json

end WidgetShorthand
