import WidgetShorthand.Document.Error
import WidgetShorthand.Text.Basic
import WidgetShorthand.Text.Blank
import WidgetShorthand.Text.Name

/-!
# The reader's cursor

A reader stands in front of the rest of its text. It remembers the brackets that are open, each by
the text from that bracket on, and what it is looking for. Offsets in bytes are needed in errors
only, and follow from the length of what is left. Reading is a state transformer over the cursor
that can fail; the first failure is final.
-/

namespace WidgetShorthand

/-- An open bracket and the text that starts with it. -/
structure OpenBracket where
  bracket : Char
  start : List Char
  deriving DecidableEq, Repr

structure Cursor where
  /-- What is still to be read. -/
  rest : List Char
  /-- The open brackets, innermost first. -/
  opened : List OpenBracket
  expecting : Expectation
  deriving DecidableEq, Repr

/-- A step of reading. -/
abbrev Reader (α : Type) : Type :=
  StateT Cursor (Except ParseError) α

/-- Whether a character closes a bracket. -/
def isCloser (c : Char) : Bool :=
  c == '}' || c == ']' || c == ')' || c == '>'

/-- The character that closes a bracket. -/
def closerOf (bracket : Char) : Char :=
  if bracket = '{' then '}'
  else if bracket = '[' then ']'
  else if bracket = '(' then ')'
  else '>'

namespace Reader

/-! ## Looking and moving -/

/-- The next character. -/
def peek : Reader (Option Char) := do
  return (← get).rest.head?

/-- Goes on to a later part of the text. -/
def moveTo (rest : List Char) : Reader Unit :=
  modify fun s => { s with rest := rest }

/-- Passes one character. -/
def advance : Reader Unit := do
  moveTo (← get).rest.tail

/-- Passes layout. -/
def skipBlanks : Reader Unit := do
  moveTo (Text.dropBlanks (← get).rest)

/-- The next character that is no layout. -/
def next : Reader (Option Char) := do
  skipBlanks
  peek

/-- Passes a certain character and any layout before it; the answer says whether it was there. -/
def eat (c : Char) : Reader Bool := do
  if (← next) = some c then
    advance
    return true
  else return false

def expectNow (e : Expectation) : Reader Unit :=
  modify fun s => { s with expecting := e }

/-! ## Failing

`size` is the length of the whole text in bytes.
-/

/-- The offset at which a rest of the text begins. -/
def offset (size : Nat) (rest : List Char) : Nat :=
  size - Text.byteLength rest

/-- Fails at a given rest of the text. -/
def failAt (size : Nat) (place : List Char) (fault : Fault) : Reader α :=
  throw ⟨offset size place, fault⟩

/-- Fails at the cursor. -/
def fail (size : Nat) (fault : Fault) : Reader α := do
  failAt size (← get).rest fault

/-- The fault of finding something else than what is wanted. -/
def unexpectedFault (size : Nat) (s : Cursor) (wanted : Wanted) : Fault :=
  match s.rest with
  | [] =>
    match s.opened with
    | [] => .endOfInput wanted
    | o :: _ => .openAtEnd o.bracket (offset size o.start) s.expecting
  | c :: _ =>
    if isCloser c && (s.opened.head?.map fun o => closerOf o.bracket) != some c then
      .strayCloser c s.expecting
    else .found c wanted

/-- Fails because something else is wanted at the cursor. -/
def unexpected (size : Nat) (wanted : Wanted) : Reader α := do
  fail size (unexpectedFault size (← get) wanted)

/-! ## Punctuation -/

/-- Passes a character that must come next. -/
def expect (size : Nat) (c : Char) : Reader Unit := do
  if ← eat c then return ()
  else unexpected size (.char c)

/-- Passes an opening bracket and remembers it. -/
def openBracket (size : Nat) (c : Char) : Reader Unit := do
  skipBlanks
  let start := (← get).rest
  expect size c
  modify fun s => { s with opened := ⟨c, start⟩ :: s.opened }

/-- Passes the closing bracket of the innermost open one. -/
def closeBracket (size : Nat) : Reader Unit := do
  match (← get).opened with
  | [] => unexpected size .endOfInput
  | o :: _ =>
    if ← eat (closerOf o.bracket) then
      modify fun s => { s with opened := s.opened.tail }
    else unexpected size (.char (closerOf o.bracket))

/-- Reads elements with a separator between each two of them, at least one. Every further element
comes behind a separator, so `fuel` need not exceed the length of the text. -/
def separatedLoop (separator : Char) (element : Reader α) : Nat → Reader (List α)
  | 0 => do
    let x ← element
    return [x]
  | fuel + 1 => do
    let x ← element
    if ← eat separator then
      let xs ← separatedLoop separator element fuel
      return x :: xs
    else return [x]

/-- Reads elements with a separator between each two of them, at least one. -/
def separated (separator : Char) (element : Reader α) : Reader (List α) := do
  separatedLoop separator element (← get).rest.length

/-- Reads separated elements, of which there are none when one of the given characters comes
next. -/
def separatedUnless (stop : Option Char → Bool) (separator : Char) (element : Reader α) :
    Reader (List α) := do
  if stop (← next) then return []
  else separated separator element

/-! ## Names -/

/-- Reads an identifier, past layout. -/
def identifier (size : Nat) : Reader String := do
  skipBlanks
  let rest := (← get).rest
  if Text.startsName rest then
    moveTo (rest.dropWhile Text.isNameChar)
    return String.ofList (rest.takeWhile Text.isNameChar)
  else unexpected size .identifier

/-- Reads an identifier or a dotted path of them, past layout. -/
def path (size : Nat) : Reader String := do
  skipBlanks
  let rest := (← get).rest
  if Text.startsName rest then
    let (name, rest) := Text.spanPath rest
    moveTo rest
    return String.ofList name
  else unexpected size .identifier

/-- Reads the identifier that must follow a mark at once. -/
def markedName (size : Nat) (wanted : Wanted) : Reader String := do
  advance
  if Text.startsName (← get).rest then identifier size
  else unexpected size wanted

end Reader

end WidgetShorthand
