import WidgetShorthand.Document.ByteCursor
import WidgetShorthand.Document.Decode

/-!
# Reading documents by bytes

The forms of the grammar once more, read with the cursor in bytes. Each form passes its marks by
steps of a fixed number of bytes, names and numerals are slices of the text between two positions,
and a string is put together from slices between its escapes. What has no part in moving the cursor
is shared with the readers of `Document/Decode`: tables, constants, and how a pattern is filled.
-/

namespace WidgetShorthand

/-- A document that is being read by its bytes. -/
structure ByteDecoding extends Decoder where
  text : List Char

namespace ByteDecoding

open ByteReader

/-! ## Tokens -/

/-- Reads a name behind its mark, or a symbol of a table. -/
def code (d : ByteDecoding) (table : Table) : ByteReader String := do
  skipBlanks d.text
  if (← peek d.text) = some '!' then markedName d.text .nameAfterMark
  else
    let start := (← get).position
    let short ← identifier d.text
    match table.longFor? short with
    | some long => return long
    | none =>
      moveTo start
      fail (.unknownCode table.category short)

/-- A key is a symbol, or a name that is no symbol. -/
def propertyKey (d : ByteDecoding) : ByteReader String := do
  match ← next d.text with
  | some c =>
    if c = '!' then markedName d.text .propertyNameAfterMark
    else if Text.isNameStart c then
      let key ← identifier d.text
      return (d.symbols.properties.longFor? key).getD key
    else unexpected d.text .propertyKeyOrClose
  | none => unexpected d.text .propertyKeyOrClose

/-- Reads the character behind an escape mark. -/
def escaped (d : ByteDecoding) : ByteReader Char := do
  match ← peek d.text with
  | some c =>
    if Text.Quoted.isReserved c then
      advance 1
      return c
    else fail (.badEscape c)
  | none => fail .endAfterEscape

/-- Reads on in a string, given what it holds so far and the position behind that. From there on
stands a run of characters that are not marked. Each character takes one of `fuel`. -/
def stringLoop (d : ByteDecoding) : Nat → List Char → Nat → ByteReader (List Char)
  | 0, held, _ => return held
  | fuel + 1, held, run => do
    match ← peek d.text with
    | none => fail .endInString
    | some c =>
      if c = '"' then
        let plain ← slice d.text run (← get).position
        advance 1
        return held ++ plain
      else if c = '\\' then
        let plain ← slice d.text run (← get).position
        advance 1
        let c ← d.escaped
        d.stringLoop fuel (held ++ plain ++ [c]) (← get).position
      else
        bump d.text
        d.stringLoop fuel held run

/-- Reads a string with its quotes. -/
def string (d : ByteDecoding) : ByteReader String := do
  expect d.text '"'
  let outer := (← get).expecting
  expectNow .stringBody
  let held ← d.stringLoop (d.text.length + 1) [] (← get).position
  expectNow outer
  return String.ofList held

def number (d : ByteDecoding) : ByteReader Scalar := do
  let start := (← get).position
  match Text.Numeral.scan? (Text.utf8 d.text) start with
  | some stop =>
    moveTo stop
    let spelling ← slice d.text start stop
    return .number (String.ofList spelling)
  | none => unexpected d.text .number

def constant (d : ByteDecoding) : ByteReader Scalar := do
  match Decoding.constant? (← peekSecond d.text) with
  | some s =>
    advance 2
    return s
  | none => fail .notConstant

def foldedLiteral (d : ByteDecoding) : ByteReader Scalar := do
  advance 1
  let long ← d.code d.symbols.literals
  return Decoding.unfold long

def expression (d : ByteDecoding) : ByteReader Scalar := do
  advance 1
  if (← peek d.text) = some '"' then
    let text ← d.string
    return .expr text
  else unexpected d.text .quoteAfterMark

/-- Fails because no level of depth is left. -/
def tooDeep (d : ByteDecoding) : ByteReader α :=
  fail (.tooDeep d.maxDepth)

/-! ## Types -/

/-- Reads a type, given how its arguments are read. -/
def typeRefWith (d : ByteDecoding) (args : ByteReader (List TypeRef)) : ByteReader TypeRef := do
  let name ← d.code d.symbols.types
  if (← next d.text) = some '<' then
    let args ← args
    return ⟨name, args⟩
  else return ⟨name, []⟩

/-- Reads type arguments between their brackets. -/
def typeArgs (d : ByteDecoding) (arg : ByteReader TypeRef) : ByteReader (List TypeRef) := do
  openBracket d.text '<'
  let args ← separated d.text ',' arg
  closeBracket d.text
  return args

def typeRef (d : ByteDecoding) : Nat → ByteCursor → EStateM.Result Stop ByteCursor TypeRef
  | 0, s => d.typeRefWith d.tooDeep s
  | levels + 1, s => d.typeRefWith (d.typeArgs (d.typeRef levels)) s

/-! ## References -/

/-- Reads one argument; nothing stands for the pattern's own value. -/
def argument (d : ByteDecoding) (value : ByteReader Value) : ByteReader (Option Scalar) := do
  match ← next d.text with
  | some ',' | some ')' => return none
  | _ =>
    let start := (← get).position
    match ← value with
    | .scalar s => return some s
    | _ => failAt start .argumentNotScalar

/-- Reads arguments, at least one, for a number of slots. -/
def arguments (d : ByteDecoding) (argument : ByteReader (Option Scalar))
    (tooMany : ByteReader (List (Option Scalar))) : Nat → ByteReader (List (Option Scalar))
  | 0 => do
    let _ ← argument
    tooMany
  | slots + 1 => do
    let arg ← argument
    if ← eat d.text ',' then
      let args ← d.arguments argument tooMany slots
      return arg :: args
    else return [arg]

/-- Reads the arguments of a reference to a pattern, up to the closing bracket. -/
def callArguments (d : ByteDecoding) (value : ByteReader Value) (entry : Entry) :
    ByteReader (List (Option Scalar)) := do
  if (← next d.text) = some ')' then return []
  else
    let tooMany := fail (.tooManyArguments entry.id entry.arity)
    d.arguments (d.argument value) tooMany entry.arity

/-- Reads a reference behind its mark, given the position of the mark. -/
def referenceFrom (d : ByteDecoding) (value : ByteReader Value) (mark : Nat) :
    ByteReader Widget := do
  let start := (← get).position
  passWhile d.text Text.isReferenceChar
  let id ← slice d.text start (← get).position
  if id.isEmpty then unexpected d.text .referenceId
  else match d.registry.get? (String.ofList id) with
    | none => failAt mark (.unknownReference (String.ofList id))
    | some entry =>
      openBracket d.text '('
      let args ← d.callArguments value entry
      closeBracket d.text
      match Decoding.fill entry args with
      | some w => return w
      | none => failAt mark (.unresolvedSlot entry.id)

def reference (d : ByteDecoding) (value : ByteReader Value) : ByteReader Widget := do
  let mark := (← get).position
  advance 1
  d.referenceFrom value mark

/-! ## Widgets and values

These readers are given the ones for the next level of depth.
-/

def property (d : ByteDecoding) (value : ByteReader Value) : ByteReader Property := do
  expectNow .propertyKeyOrClose
  let key ← d.propertyKey
  expect d.text ':'
  expectNow .propertyValue
  let v ← value
  expectNow .propertyKeyOrClose
  return ⟨key, v⟩

def properties (d : ByteDecoding) (value : ByteReader Value) : ByteReader (List Property) := do
  openBracket d.text '{'
  expectNow .propertyKeyOrClose
  let ps ← separatedUnless d.text (· == some '}') ',' (d.property value)
  closeBracket d.text
  return ps

def child (widget : ByteReader Widget) : ByteReader Widget := do
  let w ← widget
  expectNow .childOrClose
  return w

def children (d : ByteDecoding) (widget : ByteReader Widget) : ByteReader (List Widget) := do
  openBracket d.text '['
  expectNow .childOrClose
  let ws ← separatedUnless d.text (· == some ']') ',' (child widget)
  closeBracket d.text
  return ws

/-- Reads a widget that is written in full. Properties and children may both be left out. -/
def fullWidget (d : ByteDecoding) (value : ByteReader Value) (widget : ByteReader Widget) :
    ByteReader Widget := do
  let typeName ← d.code d.symbols.types
  let ps ← if (← next d.text) = some '{' then d.properties value else pure []
  let ws ← if (← next d.text) = some '[' then d.children widget else pure []
  return ⟨typeName, ps, ws⟩

/-- Reads what stands at a widget's place: a reference or a widget in full. -/
def widgetBody (d : ByteDecoding) (value : ByteReader Value) (widget : ByteReader Widget) :
    ByteReader Widget := do
  if (← peek d.text) = some '@' then d.reference value
  else d.fullWidget value widget

/-- Reads a widget once its first character shows that it is one. -/
def widgetWith (d : ByteDecoding) (body : ByteReader Widget) : ByteReader Widget := do
  expectNow .node
  match ← next d.text with
  | some c =>
    if c == '@' || c == '!' || Text.isNameStart c then body
    else unexpected d.text .widget
  | none => unexpected d.text .widget

def list (d : ByteDecoding) (value : ByteReader Value) : ByteReader (List Value) := do
  openBracket d.text '['
  let vs ← separatedUnless d.text (· == some ']') ',' value
  closeBracket d.text
  return vs

/-- A name is a widget's type when a bracket follows it, and otherwise an identifier. -/
def nameOrWidget (d : ByteDecoding) (widget : ByteReader Widget) : ByteReader Value := do
  let start := (← get).position
  let name ← path d.text
  match ← next d.text with
  | some '{' | some '[' =>
    moveTo start
    let w ← widget
    return .widget w
  | _ => return .scalar (.ident name)

/-- Reads a value, given how lists and widgets are read. -/
def valueWith (d : ByteDecoding) (list : ByteReader (List Value)) (widget : ByteReader Widget) :
    ByteReader Value := do
  match ← next d.text with
  | some '"' => return .scalar (.string (← d.string))
  | some '~' => return .scalar (← d.constant)
  | some '#' => return .scalar (← d.foldedLiteral)
  | some '&' => return .scalar (← d.expression)
  | some '[' => return .list (← list)
  | some '@' | some '!' => return .widget (← widget)
  | some c =>
    if c == '-' || c.isDigit then return .scalar (← d.number)
    else if Text.isNameStart c then d.nameOrWidget widget
    else unexpected d.text .value
  | none => unexpected d.text .value

mutual

/-- Reads a value that may take up to `levels` levels of depth. -/
def value (d : ByteDecoding) : Nat → ByteCursor → EStateM.Result Stop ByteCursor Value
  | 0, s => d.valueWith d.tooDeep (d.widgetWith d.tooDeep) s
  | levels + 1, s =>
    d.valueWith (d.list (d.value levels))
      (d.widgetWith (d.widgetBody (d.value levels) (d.widget levels))) s

/-- Reads a widget that may take up to `levels` levels of depth. -/
def widget (d : ByteDecoding) : Nat → ByteCursor → EStateM.Result Stop ByteCursor Widget
  | 0, s => d.widgetWith d.tooDeep s
  | levels + 1, s => d.widgetWith (d.widgetBody (d.value levels) (d.widget levels)) s

end

/-! ## Declarations -/

/-- Reads one keyword with its marks. -/
def modifier (d : ByteDecoding) : ByteReader String := do
  advance 1
  let word ← d.code d.symbols.keywords
  if (← peek d.text) = some '.' then
    advance 1
    return word
  else unexpected d.text .dotAfterKeyword

/-- Reads keywords as long as there are any. Each takes one of `fuel`. -/
def modifiersLoop (d : ByteDecoding) : Nat → ByteReader (List String)
  | 0 => return []
  | fuel + 1 => do
    if (← next d.text) = some '%' then
      let word ← d.modifier
      let words ← d.modifiersLoop fuel
      return word :: words
    else return []

/-- Reads keywords, also none. -/
def modifiers (d : ByteDecoding) : ByteReader (List String) :=
  d.modifiersLoop (d.text.length + 1)

/-- Reads a type behind a colon, if there is one. -/
def declaredType (d : ByteDecoding) : ByteReader (Option TypeRef) := do
  if ← eat d.text ':' then
    let t ← d.typeRef d.maxDepth
    return some t
  else return none

def initializer (d : ByteDecoding) : ByteReader (Option Value) := do
  if ← eat d.text '=' then
    let v ← d.value d.maxDepth
    return some v
  else return none

def field (d : ByteDecoding) : ByteReader Field := do
  let modifiers ← d.modifiers
  let name ← identifier d.text
  let typeRef ← d.declaredType
  let initializer ← d.initializer
  return ⟨modifiers, name, typeRef, initializer⟩

def param (d : ByteDecoding) : ByteReader Param := do
  let name ← identifier d.text
  let typeRef ← d.declaredType
  return ⟨name, typeRef⟩

/-- Reads the value of a statement, if it has one. -/
def statementValue (d : ByteDecoding) : ByteReader (Option Value) := do
  match ← next d.text with
  | some ';' | some '}' => return none
  | _ =>
    let v ← d.value d.maxDepth
    return some v

def statement (d : ByteDecoding) : ByteReader Statement := do
  let keywords ← d.modifiers
  let value ← d.statementValue
  if keywords.isEmpty && value.isNone then fail .emptyStatement
  else return ⟨keywords, value⟩

def statements (d : ByteDecoding) : ByteReader (List Statement) := do
  openBracket d.text '{'
  let block ← separatedUnless d.text (· == some '}') ';' d.statement
  closeBracket d.text
  return block

def methodBody (d : ByteDecoding) : ByteReader MethodBody := do
  match ← next d.text with
  | some '=' =>
    advance 1
    let w ← d.widget d.maxDepth
    return .widget w
  | some '{' => return .statements (← d.statements)
  | _ => unexpected d.text .methodBody

def params (d : ByteDecoding) : ByteReader (List Param) := do
  openBracket d.text '('
  let params ← separatedUnless d.text (· == some ')') ',' d.param
  closeBracket d.text
  return params

def method (d : ByteDecoding) : ByteReader Method := do
  let modifiers ← d.modifiers
  let name ← identifier d.text
  let params ← d.params
  let returnType ← d.declaredType
  let body ← d.methodBody
  return ⟨modifiers, name, params, returnType, body⟩

/-- Reads a supertype between its brackets, if there is one. -/
def superType (d : ByteDecoding) : ByteReader (Option TypeRef) := do
  if (← next d.text) = some '<' then
    openBracket d.text '<'
    let t ← d.typeRef d.maxDepth
    closeBracket d.text
    return some t
  else return none

def classDecl (d : ByteDecoding) : ByteReader ClassDecl := do
  let name ← identifier d.text
  let superType ← d.superType
  expect d.text ';'
  let fields ← separatedUnless d.text (· == some ';') ',' d.field
  expect d.text ';'
  let methods ← separatedUnless d.text (fun c => c == none || c == some '|') ',' d.method
  return ⟨name, superType, fields, methods⟩

/-! ## Documents -/

/-- Passes the name and the colon that `declaration?` has found. -/
def declarationHeader (d : ByteDecoding) : ByteReader Unit := do
  let _ ← identifier d.text
  expect d.text ':'

/-- Reads an item that is no declaration: a literal or a widget. -/
def plainItem (d : ByteDecoding) : ByteReader Node := do
  if (← next d.text).any Decoding.startsLiteral then
    match ← d.value d.maxDepth with
    | .scalar (.literal l) => return .literal l
    | _ => fail .notLiteral
  else
    let w ← d.widget d.maxDepth
    return .widget w

def item (d : ByteDecoding) : ByteReader Node := do
  expectNow .node
  match ← declaration? d.text with
  | some "c" =>
    d.declarationHeader
    return .classDecl (← d.classDecl)
  | some "m" =>
    d.declarationHeader
    return .method (← d.method)
  | some "u" => fail .nestedUnit
  | some other => fail (.unknownDeclaration other)
  | none => d.plainItem

/-- Reads a document that is not empty. -/
def root (d : ByteDecoding) : ByteReader Node := do
  if (← declaration? d.text) = some "u" then
    d.declarationHeader
    let items ← separated d.text '|' d.item
    return .unit items
  else d.item

/-- Reads a whole document. The empty document is the unit without items. -/
def document (d : ByteDecoding) : ByteReader Node := do
  if (← next d.text).isNone then return .unit []
  else
    let node ← d.root
    if (← next d.text).isSome then unexpected d.text .endOfInput
    else return node

end ByteDecoding

/-- Reads the text of a document from its first byte on. -/
def Decoder.decodeBytes (d : Decoder) (text : String) : EStateM.Result Stop ByteCursor Node :=
  let reading : ByteDecoding := { d with text := text.toList }
  reading.document .start

end WidgetShorthand
