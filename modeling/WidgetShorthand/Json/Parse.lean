import WidgetShorthand.Json.Basic

/-!
# Reading JSON texts

A strict reader of the JSON grammar: no comments, no trailing commas, no leading zeros, no raw
control characters in strings, and nothing but white space behind the value. It keeps what a value
leaves open (spelling of numbers, halves of surrogate pairs, depth) for whoever looks at the value.
-/

namespace WidgetShorthand.Json

def isSpace (c : Char) : Bool :=
  c == ' ' || c == '\n' || c == '\t' || c == '\r'

def skipSpace (cs : List Char) : List Char :=
  cs.dropWhile isSpace

/-! ## Strings -/

def hexValue? (c : Char) : Option Nat :=
  if c.isDigit then some (Text.digitValue c)
  else if 'a' ≤ c && c ≤ 'f' then some (c.toNat - 'a'.toNat + 10)
  else if 'A' ≤ c && c ≤ 'F' then some (c.toNat - 'A'.toNat + 10)
  else none

/-- The code unit that four hexadecimal digits name. -/
def codeUnit? (a b c d : Char) : Option Nat := do
  let a ← hexValue? a
  let b ← hexValue? b
  let c ← hexValue? c
  let d ← hexValue? d
  return ((a * 16 + b) * 16 + c) * 16 + d

/-- The character that a one-letter escape stands for. -/
def escaped? : Char → Option Char
  | '"' => some '"'
  | '\\' => some '\\'
  | '/' => some '/'
  | 'b' => some '\x08'
  | 'f' => some '\x0c'
  | 'n' => some '\n'
  | 'r' => some '\r'
  | 't' => some '\t'
  | _ => none

/-- Reads a string body up to its closing quote, as code points and code units of escapes. -/
def units : List Char → Option (List Nat × List Char)
  | '"' :: r => some ([], r)
  | '\\' :: 'u' :: a :: b :: c :: d :: r => do
    let unit ← codeUnit? a b c d
    let (more, rest) ← units r
    return (unit :: more, rest)
  | '\\' :: c :: r => do
    let c ← escaped? c
    let (more, rest) ← units r
    return (c.toNat :: more, rest)
  | c :: r =>
    if c.toNat < 0x20 || c == '\\' then none
    else do
      let (more, rest) ← units r
      return (c.toNat :: more, rest)
  | [] => none

def isHighSurrogate (n : Nat) : Bool :=
  0xd800 ≤ n && n < 0xdc00

def isLowSurrogate (n : Nat) : Bool :=
  0xdc00 ≤ n && n < 0xe000

/-- Joins surrogate pairs; none when a surrogate is left alone. -/
def joinUnits : List Nat → Option (List Char)
  | [] => some []
  | high :: low :: r =>
    if isHighSurrogate high then
      if isLowSurrogate low then
        (joinUnits r).map (Char.ofNat (0x10000 + (high - 0xd800) * 0x400 + (low - 0xdc00)) :: ·)
      else none
    else if isLowSurrogate high then none
    else (joinUnits (low :: r)).map (Char.ofNat high :: ·)
  | [n] => if isHighSurrogate n || isLowSurrogate n then none else some [Char.ofNat n]

/-- Reads a string just behind its opening quote. -/
def stringBody (cs : List Char) : Option (Option String × List Char) := do
  let (units, rest) ← units cs
  return ((joinUnits units).map String.ofList, rest)

/-! ## Numbers -/

/-- Splits off a run of digits. -/
def digits (cs : List Char) : List Char × List Char :=
  (cs.takeWhile Char.isDigit, cs.dropWhile Char.isDigit)

/-- Reads at least one digit. -/
def someDigits (cs : List Char) : Option (List Char × List Char) :=
  match digits cs with
  | ([], _) => none
  | (ds, rest) => some (ds, rest)

/-- The digits before the point: a zero alone, or a run that does not begin with zero. -/
def wholePart (cs : List Char) : Option (List Char × List Char) :=
  match digits cs with
  | ([], _) => none
  | ('0' :: _ :: _, _) => none
  | (ds, rest) => some (ds, rest)

/-- The digits behind the point, if there is one. -/
def fractionPart : List Char → Option (List Char × List Char)
  | '.' :: r => someDigits r
  | cs => some ([], cs)

/-- The digits of an exponent, behind its sign. -/
def exponentDigits (negative : Bool) (cs : List Char) : Option (Option Exponent × List Char) :=
  (someDigits cs).map fun (ds, rest) => (some ⟨negative, ds⟩, rest)

/-- Reads an exponent just behind its mark. -/
def exponentBody : List Char → Option (Option Exponent × List Char)
  | '-' :: r => exponentDigits true r
  | '+' :: r => exponentDigits false r
  | cs => exponentDigits false cs

def exponentPart : List Char → Option (Option Exponent × List Char)
  | 'e' :: r => exponentBody r
  | 'E' :: r => exponentBody r
  | cs => some (none, cs)

/-- Reads a number behind its minus sign. -/
def unsignedNumber (negative : Bool) (cs : List Char) : Option (Number × List Char) := do
  let (whole, rest) ← wholePart cs
  let (fraction, rest) ← fractionPart rest
  let (exponent, rest) ← exponentPart rest
  return (⟨negative, whole, fraction, exponent⟩, rest)

/-! ## Values -/

/-- Removes a word from the front of a text. -/
def skipWord : List Char → List Char → Option (List Char)
  | [], cs => some cs
  | _ :: _, [] => none
  | w :: ws, c :: cs => if c = w then skipWord ws cs else none

mutual

/-- Reads a value; `fuel` bounds the brackets and commas on the way to it. -/
def value : Nat → List Char → Option (Json × List Char)
  | 0, _ => none
  | fuel + 1, cs =>
    match skipSpace cs with
    | '"' :: r => (stringBody r).map fun (s, rest) => (.string s, rest)
    | '[' :: r =>
      match skipSpace r with
      | ']' :: rest => some (.array [], rest)
      | r => (items fuel r).map fun (js, rest) => (.array js, rest)
    | '{' :: r =>
      match skipSpace r with
      | '}' :: rest => some (.object [], rest)
      | r => (members fuel r).map fun (ms, rest) => (.object ms, rest)
    | 't' :: r => (skipWord ['r', 'u', 'e'] r).map (.bool true, ·)
    | 'f' :: r => (skipWord ['a', 'l', 's', 'e'] r).map (.bool false, ·)
    | 'n' :: r => (skipWord ['u', 'l', 'l'] r).map (.null, ·)
    | '-' :: r => (unsignedNumber true r).map fun (n, rest) => (.number n, rest)
    | r => (unsignedNumber false r).map fun (n, rest) => (.number n, rest)

/-- Reads the items of an array up to its closing bracket, at least one. -/
def items : Nat → List Char → Option (List Json × List Char)
  | 0, _ => none
  | fuel + 1, cs => do
    let (j, rest) ← value fuel cs
    match skipSpace rest with
    | ',' :: r => (items fuel r).map fun (js, rest) => (j :: js, rest)
    | ']' :: r => some ([j], r)
    | _ => none

/-- Reads the members of an object up to its closing brace, at least one. -/
def members : Nat → List Char → Option (List Member × List Char)
  | 0, _ => none
  | fuel + 1, cs =>
    match skipSpace cs with
    | '"' :: r => do
      let (key, rest) ← stringBody r
      match skipSpace rest with
      | ':' :: r =>
        let (j, rest) ← value fuel r
        match skipSpace rest with
        | ',' :: r => (members fuel r).map fun (ms, rest) => (⟨key, j⟩ :: ms, rest)
        | '}' :: r => some ([⟨key, j⟩], r)
        | _ => none
      | _ => none
    | _ => none

end

/-- Reads a text that holds one value and white space around it. -/
def parse? (text : String) : Option Json :=
  match value (text.toList.length + 1) text.toList with
  | some (j, rest) => if (skipSpace rest).isEmpty then some j else none
  | none => none

end WidgetShorthand.Json
