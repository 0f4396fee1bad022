import WidgetShorthand.Config
import WidgetShorthand.Document.Cursor
import WidgetShorthand.Registry.Basic
import WidgetShorthand.Symbol.Table
import WidgetShorthand.Text.Numeral
import WidgetShorthand.Text.Quoted
import WidgetShorthand.Tree.Slot

/-!
# Reading documents

A document becomes a tree again, or the first fault that is found from left to right. There is one
function to each form of the grammar. Depth bounds the recursion: a widget, a list and a list of
type arguments each take one of the levels that are left, and where none is left the document is
refused.
-/

namespace WidgetShorthand

/-- What documents are read with. -/
structure Decoder where
  symbols : Symbols
  registry : Registry
  maxDepth : Nat

/-- A document that is being read, of a length of `size` bytes. -/
structure Decoding extends Decoder where
  size : Nat

namespace Decoding

open Reader

/-! ## Tokens -/

/-- Reads a name behind its mark, or a symbol of a table. -/
def code (d : Decoding) (table : Table) : Reader String := do
  skipBlanks
  let start := (← get).rest
  if start.head? = some '!' then markedName d.size .nameAfterMark
  else
    let short ← identifier d.size
    match table.longFor? short with
    | some long => return long
    | none => failAt d.size start (.unknownCode table.category short)

/-- A key is a symbol, or a name that is no symbol. -/
def propertyKey (d : Decoding) : Reader String := do
  match ← next with
  | some c =>
    if c = '!' then markedName d.size .propertyNameAfterMark
    else if Text.isNameStart c then
      let key ← identifier d.size
      return (d.symbols.properties.longFor? key).getD key
    else unexpected d.size .propertyKeyOrClose
  | none => unexpected d.size .propertyKeyOrClose

def stringFault : Text.Quoted.Fault → Fault
  | .unterminated => .endInString
  | .cutEscape => .endAfterEscape
  | .badEscape c => .badEscape c

/-- Reads a string with its quotes. -/
def string (d : Decoding) : Reader String := do
  expect d.size '"'
  let outer := (← get).expecting
  expectNow .stringBody
  match Text.Quoted.read (← get).rest with
  | .ok (text, rest) =>
    moveTo rest
    expectNow outer
    return String.ofList text
  | .error (fault, place) => failAt d.size place (stringFault fault)

def number (d : Decoding) : Reader Scalar := do
  match Text.Numeral.split (← get).rest with
  | some (spelling, rest) =>
    moveTo rest
    return .number (String.ofList spelling)
  | none => unexpected d.size .number

/-- The constant that a character behind the mark names. -/
def constant? : Option Char → Option Scalar
  | some '1' => some (.bool true)
  | some '0' => some (.bool false)
  | some '_' => some .null
  | _ => none

def constant (d : Decoding) : Reader Scalar := do
  let behind := (← get).rest.tail
  match constant? behind.head? with
  | some s =>
    moveTo behind.tail
    return s
  | none => fail d.size .notConstant

/-- A folded literal is an identifier if it has the form of one, and otherwise an expression. -/
def unfold (long : String) : Scalar :=
  if Text.isPath long then .ident long else .expr long

def foldedLiteral (d : Decoding) : Reader Scalar := do
  advance
  let long ← d.code d.symbols.literals
  return unfold long

def expression (d : Decoding) : Reader Scalar := do
  advance
  if (← peek) = some '"' then
    let text ← d.string
    return .expr text
  else unexpected d.size .quoteAfterMark

/-- Fails because no level of depth is left. -/
def tooDeep (d : Decoding) : Reader α :=
  fail d.size (.tooDeep d.maxDepth)

/-! ## Types -/

/-- Reads a type, given how its arguments are read. -/
def typeRefWith (d : Decoding) (args : Reader (List TypeRef)) : Reader TypeRef := do
  let name ← d.code d.symbols.types
  if (← next) = some '<' then
    let args ← args
    return ⟨name, args⟩
  else return ⟨name, []⟩

/-- Reads type arguments between their brackets. -/
def typeArgs (d : Decoding) (arg : Reader TypeRef) : Reader (List TypeRef) := do
  openBracket d.size '<'
  let args ← separated ',' arg
  closeBracket d.size
  return args

def typeRef (d : Decoding) : Nat → Cursor → Except ParseError (TypeRef × Cursor)
  | 0, s => d.typeRefWith d.tooDeep s
  | levels + 1, s => d.typeRefWith (d.typeArgs (d.typeRef levels)) s

/-! ## References -/

/-- Reads one argument; nothing stands for the pattern's own value. -/
def argument (d : Decoding) (value : Reader Value) : Reader (Option Scalar) := do
  match ← next with
  | some ',' | some ')' => return none
  | _ =>
    let start := (← get).rest
    match ← value with
    | .scalar s => return some s
    | _ => failAt d.size start .argumentNotScalar

/-- Reads arguments, at least one, for a number of slots. -/
def arguments (argument : Reader (Option Scalar)) (tooMany : Reader (List (Option Scalar))) :
    Nat → Reader (List (Option Scalar))
  | 0 => do
    let _ ← argument
    tooMany
  | slots + 1 => do
    let arg ← argument
    if ← eat ',' then
      let args ← arguments argument tooMany slots
      return arg :: args
    else return [arg]

/-- Reads the arguments of a reference to a pattern, up to the closing bracket. -/
def callArguments (d : Decoding) (value : Reader Value) (entry : Entry) :
    Reader (List (Option Scalar)) := do
  if (← next) = some ')' then return []
  else
    let tooMany := fail d.size (.tooManyArguments entry.id entry.arity)
    arguments (d.argument value) tooMany entry.arity

/-- The pattern's widget with an argument in a slot. -/
def fillSlot (w : Widget) (slot : SlotPath × Option Scalar) : Option Widget :=
  match slot.2 with
  | some s => w.replace? slot.1 (.scalar s)
  | none => some w

/-- The widget that a reference stands for. -/
def fill (entry : Entry) (args : List (Option Scalar)) : Option Widget :=
  (entry.slots.zip args).foldlM fillSlot entry.sample

/-- Reads a reference behind its mark, given the text from the mark on. -/
def referenceFrom (d : Decoding) (value : Reader Value) (start : List Char) : Reader Widget := do
  let rest := (← get).rest
  let id := rest.takeWhile Text.isReferenceChar
  moveTo (rest.dropWhile Text.isReferenceChar)
  if id.isEmpty then unexpected d.size .referenceId
  else match d.registry.get? (String.ofList id) with
    | none => failAt d.size start (.unknownReference (String.ofList id))
    | some entry =>
      openBracket d.size '('
      let args ← d.callArguments value entry
      closeBracket d.size
      match fill entry args with
      | some w => return w
      | none => failAt d.size start (.unresolvedSlot entry.id)

def reference (d : Decoding) (value : Reader Value) : Reader Widget := do
  let start := (← get).rest
  advance
  d.referenceFrom value start

/-! ## Widgets and values

These readers are given the ones for the next level of depth.
-/

def property (d : Decoding) (value : Reader Value) : Reader Property := do
  expectNow .propertyKeyOrClose
  let key ← d.propertyKey
  expect d.size ':'
  expectNow .propertyValue
  let v ← value
  expectNow .propertyKeyOrClose
  return ⟨key, v⟩

def properties (d : Decoding) (value : Reader Value) : Reader (List Property) := do
  openBracket d.size '{'
  expectNow .propertyKeyOrClose
  let ps ← separatedUnless (· == some '}') ',' (d.property value)
  closeBracket d.size
  return ps

def child (widget : Reader Widget) : Reader Widget := do
  let w ← widget
  expectNow .childOrClose
  return w

def children (d : Decoding) (widget : Reader Widget) : Reader (List Widget) := do
  openBracket d.size '['
  expectNow .childOrClose
  let ws ← separatedUnless (· == some ']') ',' (child widget)
  closeBracket d.size
  return ws

/-- Reads a widget that is written in full. Properties and children may both be left out. -/
def fullWidget (d : Decoding) (value : Reader Value) (widget : Reader Widget) : Reader Widget := do
  let typeName ← d.code d.symbols.types
  let ps ← if (← next) = some '{' then d.properties value else pure []
  let ws ← if (← next) = some '[' then d.children widget else pure []
  return ⟨typeName, ps, ws⟩

/-- Reads what stands at a widget's place: a reference or a widget in full. -/
def widgetBody (d : Decoding) (value : Reader Value) (widget : Reader Widget) : Reader Widget := do
  if (← peek) = some '@' then d.reference value
  else d.fullWidget value widget

/-- Reads a widget once its first character shows that it is one. -/
def widgetWith (d : Decoding) (body : Reader Widget) : Reader Widget := do
  expectNow .node
  match ← next with
  | some c =>
    if c == '@' || c == '!' || Text.isNameStart c then body
    else unexpected d.size .widget
  | none => unexpected d.size .widget

def list (d : Decoding) (value : Reader Value) : Reader (List Value) := do
  openBracket d.size '['
  let vs ← separatedUnless (· == some ']') ',' value
  closeBracket d.size
  return vs

/-- A name is a widget's type when a bracket follows it, and otherwise an identifier. -/
def nameOrWidget (d : Decoding) (widget : Reader Widget) : Reader Value := do
  let start := (← get).rest
  let name ← path d.size
  match ← next with
  | some '{' | some '[' =>
    moveTo start
    let w ← widget
    return .widget w
  | _ => return .scalar (.ident name)

/-- Reads a value, given how lists and widgets are read. -/
def valueWith (d : Decoding) (list : Reader (List Value)) (widget : Reader Widget) :
    Reader Value := do
  match ← next with
  | some '"' => return .scalar (.string (← d.string))
  | some '~' => return .scalar (← d.constant)
  | some '#' => return .scalar (← d.foldedLiteral)
  | some '&' => return .scalar (← d.expression)
  | some '[' => return .list (← list)
  | some '@' | some '!' => return .widget (← widget)
  | some c =>
    if c == '-' || c.isDigit then return .scalar (← d.number)
    else if Text.isNameStart c then d.nameOrWidget widget
    else unexpected d.size .value
  | none => unexpected d.size .value

mutual

/-- Reads a value that may take up to `levels` levels of depth. -/
def value (d : Decoding) : Nat → Cursor → Except ParseError (Value × Cursor)
  | 0, s => d.valueWith d.tooDeep (d.widgetWith d.tooDeep) s
  | levels + 1, s =>
    d.valueWith (d.list (d.value levels))
      (d.widgetWith (d.widgetBody (d.value levels) (d.widget levels))) s

/-- Reads a widget that may take up to `levels` levels of depth. -/
def widget (d : Decoding) : Nat → Cursor → Except ParseError (Widget × Cursor)
  | 0, s => d.widgetWith d.tooDeep s
  | levels + 1, s => d.widgetWith (d.widgetBody (d.value levels) (d.widget levels)) s

end

/-! ## Declarations -/

/-- Reads one keyword with its marks. -/
def modifier (d : Decoding) : Reader String := do
  advance
  let word ← d.code d.symbols.keywords
  if (← peek) = some '.' then
    advance
    return word
  else unexpected d.size .dotAfterKeyword

/-- Reads keywords as long as there are any. -/
def modifiersLoop (d : Decoding) : Nat → Reader (List String)
  | 0 => return []
  | fuel + 1 => do
    if (← next) = some '%' then
      let word ← d.modifier
      let words ← d.modifiersLoop fuel
      return word :: words
    else return []

/-- Reads keywords, also none. Each takes characters of the text, so the length of the text is
enough fuel. -/
def modifiers (d : Decoding) : Reader (List String) := do
  d.modifiersLoop ((← get).rest.length + 1)

/-- Reads a type behind a colon, if there is one. -/
def declaredType (d : Decoding) : Reader (Option TypeRef) := do
  if ← eat ':' then
    let t ← d.typeRef d.maxDepth
    return some t
  else return none

def initializer (d : Decoding) : Reader (Option Value) := do
  if ← eat '=' then
    let v ← d.value d.maxDepth
    return some v
  else return none

def field (d : Decoding) : Reader Field := do
  let modifiers ← d.modifiers
  let name ← identifier d.size
  let typeRef ← d.declaredType
  let initializer ← d.initializer
  return ⟨modifiers, name, typeRef, initializer⟩

def param (d : Decoding) : Reader Param := do
  let name ← identifier d.size
  let typeRef ← d.declaredType
  return ⟨name, typeRef⟩

/-- Reads the value of a statement, if it has one. -/
def statementValue (d : Decoding) : Reader (Option Value) := do
  match ← next with
  | some ';' | some '}' => return none
  | _ =>
    let v ← d.value d.maxDepth
    return some v

def statement (d : Decoding) : Reader Statement := do
  let keywords ← d.modifiers
  let value ← d.statementValue
  if keywords.isEmpty && value.isNone then fail d.size .emptyStatement
  else return ⟨keywords, value⟩

def statements (d : Decoding) : Reader (List Statement) := do
  openBracket d.size '{'
  let block ← separatedUnless (· == some '}') ';' d.statement
  closeBracket d.size
  return block

def methodBody (d : Decoding) : Reader MethodBody := do
  match ← next with
  | some '=' =>
    advance
    let w ← d.widget d.maxDepth
    return .widget w
  | some '{' => return .statements (← d.statements)
  | _ => unexpected d.size .methodBody

def params (d : Decoding) : Reader (List Param) := do
  openBracket d.size '('
  let params ← separatedUnless (· == some ')') ',' d.param
  closeBracket d.size
  return params

def method (d : Decoding) : Reader Method := do
  let modifiers ← d.modifiers
  let name ← identifier d.size
  let params ← d.params
  let returnType ← d.declaredType
  let body ← d.methodBody
  return ⟨modifiers, name, params, returnType, body⟩

/-- Reads a supertype between its brackets, if there is one. -/
def superType (d : Decoding) : Reader (Option TypeRef) := do
  if (← next) = some '<' then
    openBracket d.size '<'
    let t ← d.typeRef d.maxDepth
    closeBracket d.size
    return some t
  else return none

def classDecl (d : Decoding) : Reader ClassDecl := do
  let name ← identifier d.size
  let superType ← d.superType
  expect d.size ';'
  let fields ← separatedUnless (· == some ';') ',' d.field
  expect d.size ';'
  let methods ← separatedUnless (fun c => c == none || c == some '|') ',' d.method
  return ⟨name, superType, fields, methods⟩

/-! ## Documents -/

/-- The name in front of a colon at the beginning of a text, which says what is declared. -/
def declaration? (cs : List Char) : Option String :=
  let cs := Text.dropBlanks cs
  if Text.startsName cs
      && (Text.dropBlanks (cs.dropWhile Text.isNameChar)).head? == some ':' then
    some (String.ofList (cs.takeWhile Text.isNameChar))
  else none

/-- Passes the name and the colon that `declaration?` has found. -/
def declarationHeader (d : Decoding) : Reader Unit := do
  let _ ← identifier d.size
  expect d.size ':'

/-- Whether a character begins a literal. -/
def startsLiteral (c : Char) : Bool :=
  c == '"' || c == '~' || c == '-' || c.isDigit

/-- Reads an item that is no declaration: a literal or a widget. -/
def plainItem (d : Decoding) : Reader Node := do
  if (← next).any startsLiteral then
    match ← d.value d.maxDepth with
    | .scalar (.literal l) => return .literal l
    | _ => fail d.size .notLiteral
  else
    let w ← d.widget d.maxDepth
    return .widget w

def item (d : Decoding) : Reader Node := do
  expectNow .node
  match declaration? (← get).rest with
  | some "c" =>
    d.declarationHeader
    return .classDecl (← d.classDecl)
  | some "m" =>
    d.declarationHeader
    return .method (← d.method)
  | some "u" => fail d.size .nestedUnit
  | some other => fail d.size (.unknownDeclaration other)
  | none => d.plainItem

/-- Reads a document that is not empty. -/
def root (d : Decoding) : Reader Node := do
  if declaration? (← get).rest = some "u" then
    d.declarationHeader
    let items ← separated '|' d.item
    return .unit items
  else d.item

/-- Reads a whole document. The empty document is the unit without items. -/
def document (d : Decoding) : Reader Node := do
  if (← next).isNone then return .unit []
  else
    let node ← d.root
    if (← next).isSome then unexpected d.size .endOfInput
    else return node

end Decoding

/-- Reads the text of a document. -/
def Decoder.decode (d : Decoder) (text : String) : Except ParseError Node :=
  let chars := text.toList
  let reading : Decoding := { d with size := Text.byteLength chars }
  (reading.document ⟨chars, [], .node⟩).map (·.1)

end WidgetShorthand
