import WidgetShorthand.Text.Basic

/-!
# Numerals

A numeral of the notation is an optional minus sign, a digit, and then letters, digits, underscores
and dots as they come. A sign may follow an exponent mark, unless the numeral is hexadecimal. The
spelling is kept as it is; nothing here gives a numeral a value.
-/

namespace WidgetShorthand.Text.Numeral

def isSign (c : Char) : Bool :=
  c == '+' || c == '-'

def isExponentMark (c : Char) : Bool :=
  c == 'e' || c == 'E'

/-- Whether `c` may stand in a numeral behind `last`. -/
def continues (hex : Bool) (last c : Char) : Bool :=
  c.isAlphanum || c == '_' || c == '.' || (!hex && isSign c && isExponentMark last)

/-- Splits off the longest run that continues a numeral ending in `last`. -/
def spanFrom (hex : Bool) (last : Char) : List Char → List Char × List Char
  | [] => ([], [])
  | c :: r =>
    if continues hex last c then
      let (run, rest) := spanFrom hex c r
      (c :: run, rest)
    else ([], c :: r)

/-- A numeral is hexadecimal when its first digit is a zero with an `x` behind it. -/
def isHex (first : Char) : List Char → Bool
  | [] => false
  | c :: _ => first == '0' && (c == 'x' || c == 'X')

/-- Splits off a numeral without sign, if one stands here. -/
def splitUnsigned : List Char → Option (List Char × List Char)
  | [] => none
  | c :: r =>
    if c.isDigit then
      let (run, rest) := spanFrom (isHex c r) c r
      some (c :: run, rest)
    else none

/-- Splits off the numeral that a text begins with, if there is one. -/
def split : List Char → Option (List Char × List Char)
  | '-' :: r => (splitUnsigned r).map fun (run, rest) => ('-' :: run, rest)
  | cs => splitUnsigned cs

/-- Whether a text is exactly one numeral. -/
def isNumeral (s : List Char) : Bool :=
  match split s with
  | some (_, []) => true
  | _ => false

/-- The offset in bytes behind the numeral that stands at an offset, if one stands there. -/
def endFrom? (s : String) (start : Nat) : Option Nat := do
  let (run, _) ← split (← dropBytes start s.toList)
  return start + byteLength run

/-! ## Numerals in bytes

A byte is classified as the character with its number. No byte of a longer character is one that a
numeral is made of.
-/

/-- The position behind the run of bytes that continues a numeral. Each takes one of `fuel`, which
need not exceed the number of bytes. -/
def scanLoop (bytes : List UInt8) (hex : Bool) : Nat → Nat → Nat
  | 0, position => position
  | fuel + 1, position =>
    match bytes[position]?, bytes[position - 1]? with
    | some byte, some last =>
      if continues hex (Char.ofUInt8 last) (Char.ofUInt8 byte) then
        scanLoop bytes hex fuel (position + 1)
      else position
    | _, _ => position

/-- Whether the digit at a position begins a hexadecimal numeral. -/
def isHexAt (bytes : List UInt8) (position : Nat) : Bool :=
  match bytes[position]?, bytes[position + 1]? with
  | some first, some second => isHex (Char.ofUInt8 first) [Char.ofUInt8 second]
  | _, _ => false

/-- The position behind the numeral whose first digit may stand at a position. -/
def scanUnsigned? (bytes : List UInt8) (position : Nat) : Option Nat :=
  if (bytes[position]?.map Char.ofUInt8).any Char.isDigit then
    some (scanLoop bytes (isHexAt bytes position) bytes.length (position + 1))
  else none

/-- The position behind the numeral that stands at a position, if one stands there. -/
def scan? (bytes : List UInt8) (start : Nat) : Option Nat :=
  if (bytes[start]?.map Char.ofUInt8).any (· == '-') then scanUnsigned? bytes (start + 1)
  else scanUnsigned? bytes start

end WidgetShorthand.Text.Numeral
