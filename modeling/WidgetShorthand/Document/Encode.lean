import WidgetShorthand.Config
import WidgetShorthand.Document.Error
import WidgetShorthand.Registry.Mining
import WidgetShorthand.Registry.Search
import WidgetShorthand.Symbol.Table
import WidgetShorthand.Text.Numeral
import WidgetShorthand.Text.Quoted

/-!
# Writing documents

A tree becomes a document, part by part from left to right; the first part that cannot be written is
the error. Marks say how a name is to be read:

- `!name` is a name written out, where a symbol could stand;
- `%code.` is a keyword, `#code` a folded literal, `@id(…)` a reference;
- `&"…"` is an expression, and `~1`, `~0`, `~_` are the constants.

Symbols only ever replace whole names, so nothing inside a string or an expression can be mistaken
for one. A widget, a list and a list of type arguments each take one level of depth; the functions
below are given the levels that are left.
-/

namespace WidgetShorthand

/-! ## Fragments -/

/-- A piece of a document under construction: its text, and how many references to patterns are in
it. -/
structure Fragment where
  text : List Char
  references : Nat
  deriving DecidableEq, Repr

namespace Fragment

/-- A fragment without references. -/
def ofText (text : List Char) : Fragment :=
  ⟨text, 0⟩

instance : Append Fragment where
  append a b := ⟨a.text ++ b.text, a.references + b.references⟩

@[simp] theorem text_append (a b : Fragment) : (a ++ b).text = a.text ++ b.text := rfl

@[simp] theorem references_append (a b : Fragment) :
    (a ++ b).references = a.references + b.references := rfl

@[simp] theorem text_ofText (text : List Char) : (ofText text).text = text := rfl

@[simp] theorem references_ofText (text : List Char) : (ofText text).references = 0 := rfl

/-- Fragments one after the other with a separator between each two of them. -/
def join (separator : List Char) : List Fragment → Fragment
  | [] => ofText []
  | [f] => f
  | f :: g :: rest => f ++ (ofText separator ++ join separator (g :: rest))

/-- A fragment between two texts. -/
def enclose (before : List Char) (f : Fragment) (after : List Char) : Fragment :=
  ofText before ++ (f ++ ofText after)

end Fragment

/-! ## Options -/

structure EncodeOptions where
  /-- One for references to exact matches only, less for near ones too. -/
  similarityThreshold : Float
  registerPatterns : Bool
  minPatternTokens : Nat
  maxDepth : Nat

def EncodeOptions.default : EncodeOptions :=
  ⟨1.0, false, 6, defaultMaxDepth⟩

def Config.encodeOptions (c : Config) : EncodeOptions :=
  ⟨c.similarityThreshold, c.registerPatterns, c.minPatternTokens, c.maxDepth⟩

/-- What a tree is written with. -/
structure Encoder where
  symbols : Symbols
  registry : Registry
  strategy : Strategy
  options : EncodeOptions

/-- A written tree. -/
structure Encoded where
  document : String
  strategy : Strategy
  /-- The number of references in the document. -/
  references : Nat
  /-- The repeated shapes that were found, if registering is switched on. -/
  minted : Buffer

namespace Encoder

/-! ## Names -/

/-- The characters of an identifier. -/
def identifier (place : NamePlace) (name : String) : Except EncodeError (List Char) :=
  if Text.isIdentifier name then .ok name.toList else .error (.invalidIdentifier place name)

/-- The symbol of a name, or the name itself behind its mark. -/
def code (table : Table) (place : NamePlace) (name : String) : Except EncodeError (List Char) :=
  match table.shortFor? name with
  | some short => .ok short.toList
  | none => (identifier place name).map ('!' :: ·)

def keyword (e : Encoder) (word : String) : Except EncodeError (List Char) :=
  (code e.symbols.keywords .keyword word).map fun cs => '%' :: (cs ++ ['.'])

def keywords (e : Encoder) (words : List String) : Except EncodeError Fragment :=
  (words.mapM e.keyword).map fun codes => .ofText codes.flatten

def typeCode (e : Encoder) (name : String) : Except EncodeError (List Char) :=
  code e.symbols.types .type name

/-- A property key needs a mark only where it would be read as a symbol. -/
def propertyKey (e : Encoder) (key : String) : Except EncodeError (List Char) :=
  match e.symbols.properties.shortFor? key with
  | some short => .ok short.toList
  | none =>
    (identifier .property key).map fun cs =>
      if e.symbols.properties.hasShort key then '!' :: cs else cs

/-! ## Scalars -/

def literal (l : Literal) : Except EncodeError (List Char) :=
  match l.kind with
  | .string => .ok (Text.Quoted.quote l.raw.toList)
  | .number =>
    if Text.Numeral.isNumeral l.raw.toList then .ok l.raw.toList else .error (.invalidNumber l.raw)
  | .bool =>
    if l.raw = "true" then .ok ['~', '1']
    else if l.raw = "false" then .ok ['~', '0']
    else .error (.invalidBool l.raw)
  | .null => if l.raw = "null" then .ok ['~', '_'] else .error (.invalidNull l.raw)

/-- The literal symbol of a name or an expression, if literals are folded. -/
def folded? (e : Encoder) (long : String) : Option String :=
  if e.strategy.foldsLiterals then e.symbols.literals.shortFor? long else none

/-- An expression is folded only when it would not be read back as an identifier. -/
def scalar (e : Encoder) : Scalar → Except EncodeError (List Char)
  | .literal l => literal l
  | .ident name =>
    if Text.isPath name then
      match e.folded? name with
      | some short => .ok ('#' :: short.toList)
      | none => .ok name.toList
    else .error (.invalidIdentifier .value name)
  | .expr text =>
    match if Text.isPath text then none else e.folded? text with
    | some short => .ok ('#' :: short.toList)
    | none => .ok ('&' :: Text.Quoted.quote text.toList)

/-! ## References -/

/-- The pattern that a widget is written as: the one of its shape, or a similar one where the
threshold allows it. -/
def matchPattern? (e : Encoder) (w : Widget) : Option Entry :=
  if e.strategy.usesPatterns then
    match e.registry.lookup? w.fingerprint with
    | some entry => some entry
    | none =>
      if e.options.similarityThreshold < 1.0 then
        (e.registry.findSimilar? w e.options.similarityThreshold).map (·.1)
      else none
  else none

/-- The argument for a slot: the scalar that the widget has there, if it is not the pattern's
own. -/
def argument (entry : Entry) (w : Widget) (path : SlotPath) : Option Scalar :=
  match w.at? path with
  | some (.scalar s) => if entry.sample.at? path = some (.scalar s) then none else some s
  | _ => none

/-- Leaves out what is missing at the end. -/
def dropMissing (args : List (Option Scalar)) : List (Option Scalar) :=
  (args.reverse.dropWhile Option.isNone).reverse

def arguments (entry : Entry) (w : Widget) : List (Option Scalar) :=
  dropMissing (entry.slots.map (argument entry w))

/-- An argument as it is written; a missing one is empty. -/
def argumentText (e : Encoder) (arg : Option Scalar) : Except EncodeError Fragment :=
  match arg with
  | some s => (e.scalar s).map .ofText
  | none => .ok (.ofText [])

def reference (e : Encoder) (entry : Entry) (w : Widget) : Except EncodeError Fragment :=
  ((arguments entry w).mapM e.argumentText).map fun args =>
    let call := Fragment.enclose ('@' :: (entry.id.toList ++ ['('])) (.join [','] args) [')']
    ⟨call.text, call.references + 1⟩

/-! ## Widgets and values -/

def tooDeep (e : Encoder) : EncodeError :=
  .depthLimitExceeded e.options.maxDepth

mutual

/-- A widget, as a reference or in full. -/
def widget (e : Encoder) (levels : Nat) : Widget → Except EncodeError Fragment
  | ⟨typeName, ps, cs⟩ =>
    match levels with
    | 0 => .error e.tooDeep
    | levels + 1 =>
      match e.matchPattern? ⟨typeName, ps, cs⟩ with
      | some entry => e.reference entry ⟨typeName, ps, cs⟩
      | none => do
        let code ← e.typeCode typeName
        let properties ← e.properties levels ps
        let body := Fragment.enclose (code ++ ['{']) (.join [','] properties) ['}']
        let children ← e.children levels cs
        if cs.isEmpty then return body
        else return body ++ .enclose ['['] (.join [','] children) [']']

def properties (e : Encoder) (levels : Nat) : List Property → Except EncodeError (List Fragment)
  | [] => .ok []
  | ⟨key, v⟩ :: ps => do
    let code ← e.propertyKey key
    let text ← e.value levels v
    let rest ← e.properties levels ps
    return (.ofText (code ++ [':']) ++ text) :: rest

def children (e : Encoder) (levels : Nat) : List Widget → Except EncodeError (List Fragment)
  | [] => .ok []
  | c :: cs => do
    let text ← e.widget levels c
    let rest ← e.children levels cs
    return text :: rest

def value (e : Encoder) (levels : Nat) : Value → Except EncodeError Fragment
  | .scalar s => (e.scalar s).map .ofText
  | .widget w => e.widget levels w
  | .list items =>
    match levels with
    | 0 => .error e.tooDeep
    | levels + 1 => do
      let texts ← e.items levels items
      return .enclose ['['] (.join [','] texts) [']']

def items (e : Encoder) (levels : Nat) : List Value → Except EncodeError (List Fragment)
  | [] => .ok []
  | v :: vs => do
    let text ← e.value levels v
    let rest ← e.items levels vs
    return text :: rest

end

/-! ## Types -/

mutual

def typeRef (e : Encoder) (levels : Nat) : TypeRef → Except EncodeError Fragment
  | ⟨name, []⟩ => (e.typeCode name).map .ofText
  | ⟨name, arg :: args⟩ => do
    let code ← e.typeCode name
    match levels with
    | 0 => throw e.tooDeep
    | levels + 1 =>
      let texts ← e.typeRefs levels (arg :: args)
      return .enclose (code ++ ['<']) (.join [','] texts) ['>']

def typeRefs (e : Encoder) (levels : Nat) : List TypeRef → Except EncodeError (List Fragment)
  | [] => .ok []
  | t :: ts => do
    let text ← e.typeRef levels t
    let rest ← e.typeRefs levels ts
    return text :: rest

end

/-- Something that may be missing, with a mark in front of it. -/
def optional (mark : Char) (write : α → Except EncodeError Fragment) :
    Option α → Except EncodeError Fragment
  | none => .ok (.ofText [])
  | some x => (write x).map (.ofText [mark] ++ ·)

/-! ## Declarations -/

/-- A line end where the strategy keeps layout. -/
def layout (e : Encoder) : List Char :=
  if e.strategy.elidesLayout then [] else ['\n']

/-- Depth is counted from the root of every type and of every value. -/
def declaredType (e : Encoder) : Option TypeRef → Except EncodeError Fragment :=
  optional ':' (e.typeRef e.options.maxDepth)

def field (e : Encoder) (f : Field) : Except EncodeError Fragment := do
  let modifiers ← e.keywords f.modifiers
  let name ← identifier .field f.name
  let type ← e.declaredType f.typeRef
  let initializer ← optional '=' (e.value e.options.maxDepth) f.initializer
  return modifiers ++ (.ofText name ++ (type ++ initializer))

def param (e : Encoder) (p : Param) : Except EncodeError Fragment := do
  let name ← identifier .parameter p.name
  let type ← e.declaredType p.typeRef
  return .ofText name ++ type

/-- The value of a statement, if it has one. -/
def statementValue (e : Encoder) : Option Value → Except EncodeError Fragment
  | none => .ok (.ofText [])
  | some v => e.value e.options.maxDepth v

def statement (e : Encoder) (s : Statement) : Except EncodeError Fragment :=
  if s.keywords.isEmpty && s.value.isNone then .error .emptyStatement
  else do
    let keywords ← e.keywords s.keywords
    let value ← e.statementValue s.value
    return keywords ++ value

def methodBody (e : Encoder) : MethodBody → Except EncodeError Fragment
  | .widget w => (e.widget e.options.maxDepth w).map (.ofText ['='] ++ ·)
  | .statements block =>
    (block.mapM e.statement).map fun texts => .enclose ['{'] (.join [';'] texts) ['}']

def method (e : Encoder) (m : Method) : Except EncodeError Fragment := do
  let modifiers ← e.keywords m.modifiers
  let name ← identifier .method m.name
  let params ← m.params.mapM e.param
  let returnType ← e.declaredType m.returnType
  let body ← e.methodBody m.body
  return modifiers ++ (.enclose (name ++ ['(']) (.join [','] params) [')'] ++ (returnType ++ body))

/-- The supertype stands between angle brackets, which take no level of depth. -/
def superType (e : Encoder) : Option TypeRef → Except EncodeError Fragment
  | none => .ok (.ofText [])
  | some t => (e.typeRef e.options.maxDepth t).map (.enclose ['<'] · ['>'])

def classDecl (e : Encoder) (c : ClassDecl) : Except EncodeError Fragment := do
  let name ← identifier .classDecl c.name
  let superType ← e.superType c.superType
  let fields ← c.fields.mapM e.field
  let methods ← c.methods.mapM e.method
  let comma := ',' :: e.layout
  let semicolon := Fragment.ofText (';' :: e.layout)
  return .ofText ('c' :: ':' :: name) ++ (superType ++ (semicolon ++
    (.join comma fields ++ (semicolon ++ .join comma methods))))

/-! ## Documents -/

/-- An item of a document. -/
def item (e : Encoder) : Node → Except EncodeError Fragment
  | .classDecl c => e.classDecl c
  | .method m => (e.method m).map (.ofText ['m', ':'] ++ ·)
  | .widget w => e.widget e.options.maxDepth w
  | .literal l => (literal l).map .ofText
  | .unit _ => .error .nestedUnit

/-- A whole document. A unit without items is the empty document. -/
def document (e : Encoder) : Node → Except EncodeError Fragment
  | .unit [] => .ok (.ofText [])
  | .unit (n :: ns) =>
    ((n :: ns).mapM e.item).map fun items =>
      .ofText ['u', ':'] ++ .join ('|' :: e.layout) items
  | n => e.item n

/-- Writes a tree, and mines it for patterns if registering is switched on. -/
def encode (e : Encoder) (tree : Node) : Except EncodeError Encoded :=
  (e.document tree).map fun f =>
    let minted :=
      if e.options.registerPatterns then e.registry.mine tree e.options.minPatternTokens else .empty
    ⟨String.ofList f.text, e.strategy, f.references, minted⟩

end Encoder

end WidgetShorthand
