import WidgetShorthand.Json.Basic

/-!
# JSON texts

Two layouts of a JSON value: on one line without any space, and with one item to a line, indented by
two spaces a level. Strings keep every character as it is, apart from the quote, the backslash and
the controls below the space.
-/

namespace WidgetShorthand.Json

def hexDigit (n : Nat) : Char :=
  Nat.digitChar (n % 16)

/-- A character as it stands in a string. -/
def escapeChar (c : Char) : List Char :=
  if c = '"' then ['\\', '"']
  else if c = '\\' then ['\\', '\\']
  else if c = '\n' then ['\\', 'n']
  else if c = '\r' then ['\\', 'r']
  else if c = '\t' then ['\\', 't']
  else if c = '\x08' then ['\\', 'b']
  else if c = '\x0c' then ['\\', 'f']
  else if c.toNat < 0x20 then ['\\', 'u', '0', '0', hexDigit (c.toNat / 16), hexDigit c.toNat]
  else [c]

def quoted (s : String) : List Char :=
  '"' :: (s.toList.flatMap escapeChar ++ ['"'])

/-- A string without text is printed as an empty one. -/
def quotedText (s : Option String) : List Char :=
  quoted (s.getD "")

def Number.text (n : Number) : List Char :=
  let fraction := if n.fraction.isEmpty then [] else '.' :: n.fraction
  let exponent := match n.exponent with
    | none => []
    | some e => 'e' :: ((if e.negative then ['-'] else []) ++ e.digits)
  (if n.negative then ['-'] else []) ++ n.whole ++ fraction ++ exponent

/-- The literal names and the atoms of both layouts. -/
def boolText (b : Bool) : List Char :=
  if b then ['t', 'r', 'u', 'e'] else ['f', 'a', 'l', 's', 'e']

def nullText : List Char :=
  ['n', 'u', 'l', 'l']

mutual

/-- A value on one line. -/
def compact : Json → List Char
  | .null => nullText
  | .bool b => boolText b
  | .number n => n.text
  | .string s => quotedText s
  | .array items => '[' :: (compactItems items ++ [']'])
  | .object members => '{' :: (compactMembers members ++ ['}'])

/-- Items with commas between them. -/
def compactItems : List Json → List Char
  | [] => []
  | [j] => compact j
  | j :: k :: rest => compact j ++ ',' :: compactItems (k :: rest)

/-- Members with commas between them. -/
def compactMembers : List Member → List Char
  | [] => []
  | [⟨key, j⟩] => quotedText key ++ ':' :: compact j
  | ⟨key, j⟩ :: m :: rest =>
      quotedText key ++ ':' :: (compact j ++ ',' :: compactMembers (m :: rest))

end

/-- The start of a line at a depth. -/
def newline (depth : Nat) : List Char :=
  '\n' :: List.replicate (2 * depth) ' '

mutual

/-- A value with one item to a line, inside `depth` others. -/
def pretty (depth : Nat) : Json → List Char
  | .null => nullText
  | .bool b => boolText b
  | .number n => n.text
  | .string s => quotedText s
  | .array [] => ['[', ']']
  | .array (j :: rest) => '[' :: (prettyItems (depth + 1) (j :: rest) ++ newline depth ++ [']'])
  | .object [] => ['{', '}']
  | .object (m :: rest) => '{' :: (prettyMembers (depth + 1) (m :: rest) ++ newline depth ++ ['}'])

/-- Items, each on a line of its own. -/
def prettyItems (depth : Nat) : List Json → List Char
  | [] => []
  | [j] => newline depth ++ pretty depth j
  | j :: k :: rest => newline depth ++ pretty depth j ++ ',' :: prettyItems depth (k :: rest)

/-- Members, each on a line of its own. -/
def prettyMembers (depth : Nat) : List Member → List Char
  | [] => []
  | [⟨key, j⟩] => newline depth ++ quotedText key ++ ':' :: ' ' :: pretty depth j
  | ⟨key, j⟩ :: m :: rest =>
    newline depth ++ quotedText key ++ ':' :: ' ' ::
      (pretty depth j ++ ',' :: prettyMembers depth (m :: rest))

end

/-- The text of a value with one item to a line. -/
def prettyText (j : Json) : String :=
  String.ofList (pretty 0 j)

/-- The text of a value on one line. -/
def compactText (j : Json) : String :=
  String.ofList (compact j)

end WidgetShorthand.Json
