import WidgetShorthand.Document.Cursor

/-!
# The reader's cursor in bytes

Here a reader keeps the whole text and goes on in it by a number of bytes. To look at what comes
next it slices the text at its position, and there may be no slice: a position can lie inside a
character or behind the end. Then reading breaks off. Nothing keeps a position from being such a one
but the steps themselves. Most of them are one byte long, since the character that was seen there is
known to take one byte; only a character of any kind is passed by its own width.

A cursor does not forget its positions, so that they can be asked about when the reading is over.
-/

namespace WidgetShorthand

structure ByteCursor where
  /-- The number of bytes in front of the cursor. -/
  position : Nat
  /-- The positions before this one, the latest first. -/
  earlier : List Nat
  /-- The open brackets and their positions, innermost first. -/
  opened : List (Char × Nat)
  expecting : Expectation
  deriving DecidableEq, Repr

namespace ByteCursor

/-- The cursor at the beginning of a text. -/
def start : ByteCursor :=
  ⟨0, [], [], .node⟩

/-- All positions of the cursor so far. -/
def visited (s : ByteCursor) : List Nat :=
  s.position :: s.earlier

end ByteCursor

/-- Why reading breaks off. -/
inductive Stop where
  | fault (error : ParseError)
  /-- A slice of the text was to begin or end inside a character or behind the end. -/
  | badSlice
  deriving DecidableEq, Repr

/-- A step of reading. When it fails it still leaves a cursor. -/
abbrev ByteReader (α : Type) : Type :=
  EStateM Stop ByteCursor α

namespace ByteReader

variable {α : Type} (text : List Char)

/-! ## Looking and moving -/

/-- Goes to a position. -/
def moveTo (position : Nat) : ByteReader Unit :=
  modify fun s => { s with position := position, earlier := s.visited }

/-- Goes on by a number of bytes. -/
def advance (bytes : Nat) : ByteReader Unit := do
  moveTo ((← get).position + bytes)

/-- Takes a slice of the text, which has to be one. -/
def sliced (slice? : Option (List Char)) : ByteReader (List Char) :=
  match slice? with
  | some slice => return slice
  | none => throw .badSlice

/-- The text from one position to another. -/
def slice (start stop : Nat) : ByteReader (List Char) :=
  sliced (Text.slice? start stop text)

/-- The text from the cursor on. -/
def ahead : ByteReader (List Char) := do
  sliced (Text.dropBytes (← get).position text)

/-- The next character. -/
def peek : ByteReader (Option Char) := do
  return (← ahead text).head?

/-- The character behind the next one. -/
def peekSecond : ByteReader (Option Char) := do
  return (← ahead text).tail.head?

/-- Passes one character of any width. -/
def bump : ByteReader Unit := do
  match ← peek text with
  | some c => advance c.utf8Size
  | none => return ()

/-- Passes characters of a kind, byte by byte. Each takes one of `fuel`. -/
def passLoop (p : Char → Bool) : Nat → ByteReader Unit
  | 0 => return ()
  | fuel + 1 => do
    if (← peek text).any p then
      advance 1
      passLoop p fuel
    else return ()

/-- Passes all characters of a kind that come next. -/
def passWhile (p : Char → Bool) : ByteReader Unit :=
  passLoop text p text.length

/-- Passes layout. -/
def skipBlanks : ByteReader Unit :=
  passWhile text Text.isBlank

/-- The next character that is no layout. -/
def next : ByteReader (Option Char) := do
  skipBlanks text
  peek text

/-- Passes a certain character and any layout before it; the answer says whether it was there. -/
def eat (c : Char) : ByteReader Bool := do
  if (← next text) = some c then
    advance c.utf8Size
    return true
  else return false

def expectNow (e : Expectation) : ByteReader Unit :=
  modify fun s => { s with expecting := e }

/-! ## Failing -/

def failAt (position : Nat) (fault : Fault) : ByteReader α :=
  throw (.fault ⟨position, fault⟩)

/-- Fails at the cursor. -/
def fail (fault : Fault) : ByteReader α := do
  failAt (← get).position fault

/-- The fault of finding a character, or the end, where something else is wanted. -/
def unexpectedFault (found : Option Char) (s : ByteCursor) (wanted : Wanted) : Fault :=
  match found with
  | none =>
    match s.opened with
    | [] => .endOfInput wanted
    | (bracket, position) :: _ => .openAtEnd bracket position s.expecting
  | some c =>
    if isCloser c && (s.opened.head?.map fun o => closerOf o.1) != some c then
      .strayCloser c s.expecting
    else .found c wanted

/-- Fails because something else is wanted at the cursor. -/
def unexpected (wanted : Wanted) : ByteReader α := do
  let found ← peek text
  fail (unexpectedFault found (← get) wanted)

/-! ## Punctuation -/

/-- Passes a character that must come next. -/
def expect (c : Char) : ByteReader Unit := do
  if ← eat text c then return ()
  else unexpected text (.char c)

/-- Passes an opening bracket and remembers it. -/
def openBracket (c : Char) : ByteReader Unit := do
  skipBlanks text
  let start := (← get).position
  expect text c
  modify fun s => { s with opened := (c, start) :: s.opened }

/-- Passes the closing bracket of the innermost open one. -/
def closeBracket : ByteReader Unit := do
  match (← get).opened with
  | [] => unexpected text .endOfInput
  | (bracket, _) :: _ =>
    if ← eat text (closerOf bracket) then
      modify fun s => { s with opened := s.opened.tail }
    else unexpected text (.char (closerOf bracket))

/-- Reads elements with a separator between each two of them, at least one. Each separator takes one
of `fuel`. -/
def separatedLoop (separator : Char) (element : ByteReader α) : Nat → ByteReader (List α)
  | 0 => do
    let x ← element
    return [x]
  | fuel + 1 => do
    let x ← element
    if ← eat text separator then
      let xs ← separatedLoop separator element fuel
      return x :: xs
    else return [x]

/-- Reads elements with a separator between each two of them, at least one. -/
def separated (separator : Char) (element : ByteReader α) : ByteReader (List α) :=
  separatedLoop text separator element text.length

/-- Reads separated elements, of which there are none when one of the given characters comes
next. -/
def separatedUnless (stop : Option Char → Bool) (separator : Char) (element : ByteReader α) :
    ByteReader (List α) := do
  if stop (← next text) then return []
  else separated text separator element

/-! ## Names -/

/-- Reads an identifier, past layout. -/
def identifier : ByteReader String := do
  skipBlanks text
  let start := (← get).position
  if (← peek text).any Text.isNameStart then
    advance 1
    passWhile text Text.isNameChar
    let name ← slice text start (← get).position
    return String.ofList name
  else unexpected text .identifier

/-- Reads on in a path, given what has been read of it. Each identifier takes one of `fuel`. -/
def pathLoop : Nat → String → ByteReader String
  | 0, path => return path
  | fuel + 1, path => do
    if (← peek text) = some '.' && (← peekSecond text).any Text.isNameStart then
      advance 1
      let name ← identifier text
      pathLoop fuel (path ++ "." ++ name)
    else return path

/-- Reads an identifier or a dotted path of them, past layout. -/
def path : ByteReader String := do
  let name ← identifier text
  pathLoop text text.length name

/-- Reads the identifier that must follow a mark at once. -/
def markedName (wanted : Wanted) : ByteReader String := do
  advance 1
  if (← peek text).any Text.isNameStart then identifier text
  else unexpected text wanted

/-- Reads a name, and answers it if a colon follows. -/
def nameBeforeColon : ByteReader (Option String) := do
  let name ← identifier text
  return if (← next text) = some ':' then some name else none

/-- The name in front of a colon, which says what is declared. The cursor comes back to where it
was, also when there is no name at all. -/
def declaration? : ByteReader (Option String) := do
  let start := (← get).position
  let found ← tryCatch (nameBeforeColon text) fun
    | .fault _ => return none
    | .badSlice => throw .badSlice
  moveTo start
  return found

end ByteReader

end WidgetShorthand
