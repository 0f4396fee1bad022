import WidgetShorthand.Digest.Sha256
import WidgetShorthand.Tree.Basic

/-!
# Tokens of a tree

A tree written as a flat sequence of tokens. In full detail the tokens spell out every scalar; the
shape of a widget keeps the widgets, keys and lists, and puts the same anonymous slot in the place
of every scalar. Two widgets of one shape differ in their slots only.
-/

namespace WidgetShorthand

/-- A token. The punctuation tokens open, close and separate the parts of declarations. -/
inductive Token where
  | slot
  | widgetType (name : String)
  | key (name : String)
  | literal (value : Literal)
  | ident (name : String)
  | expr (text : String)
  | classDecl (name : String)
  | field (name : String)
  | method (name : String)
  | param (name : String)
  | modifier (word : String)
  | unit
  | item
  | openArgs
  | closeArgs
  | part
  | assign
  | openParams
  | closeParams
  | openProperties
  | closeProperties
  | openChildren
  | closeChildren
  deriving DecidableEq

/-- The text of a token. Lists share their brackets with parameters, and statement blocks theirs
with properties. -/
def Token.text : Token → String
  | .slot => "?"
  | .widgetType name => "T:" ++ name
  | .key name => "K:" ++ name
  | .literal l => "L" ++ l.kind.name ++ ":" ++ l.raw
  | .ident name => "I:" ++ name
  | .expr text => "E:" ++ text
  | .classDecl name => "C:" ++ name
  | .field name => "F:" ++ name
  | .method name => "M:" ++ name
  | .param name => "P:" ++ name
  | .modifier word => "%" ++ word
  | .unit => "U"
  | .item => "|"
  | .openArgs => "<"
  | .closeArgs => ">"
  | .part => ";"
  | .assign => "="
  | .openParams => "("
  | .closeParams => ")"
  | .openProperties => "\x7b"
  | .closeProperties => "\x7d"
  | .openChildren => "["
  | .closeChildren => "]"

/-- How much of a scalar the tokens show. -/
inductive Detail where
  /-- Every scalar is the same anonymous slot. -/
  | shape
  /-- Scalars are spelled out. -/
  | full
  deriving DecidableEq

def Scalar.token (detail : Detail) (s : Scalar) : Token :=
  match detail, s with
  | .shape, _ => .slot
  | .full, .literal l => .literal l
  | .full, .ident name => .ident name
  | .full, .expr text => .expr text

mutual

def Widget.tokens (detail : Detail) : Widget → List Token
  | ⟨t, ps, cs⟩ =>
    .widgetType t :: .openProperties :: (propertyTokens detail ps ++
      .closeProperties :: .openChildren :: (childTokens detail cs ++ [.closeChildren]))

def propertyTokens (detail : Detail) : List Property → List Token
  | [] => []
  | ⟨k, v⟩ :: ps => .key k :: (v.tokens detail ++ propertyTokens detail ps)

def childTokens (detail : Detail) : List Widget → List Token
  | [] => []
  | c :: cs => c.tokens detail ++ childTokens detail cs

def Value.tokens (detail : Detail) : Value → List Token
  | .scalar s => [s.token detail]
  | .widget w => w.tokens detail
  | .list items => .openParams :: (itemTokens detail items ++ [.closeParams])

def itemTokens (detail : Detail) : List Value → List Token
  | [] => []
  | v :: vs => v.tokens detail ++ itemTokens detail vs

end

/-- The shape of a widget. -/
def Widget.shape (w : Widget) : List Token :=
  w.tokens .shape

mutual

def TypeRef.tokens : TypeRef → List Token
  | ⟨name, []⟩ => [.widgetType name]
  | ⟨name, arg :: args⟩ =>
    .widgetType name :: .openArgs :: (typeRefTokens (arg :: args) ++ [.closeArgs])

def typeRefTokens : List TypeRef → List Token
  | [] => []
  | t :: ts => t.tokens ++ typeRefTokens ts

end

/-- The tokens of a type that may be missing. -/
def optionTypeTokens (t : Option TypeRef) : List Token :=
  t.elim [] TypeRef.tokens

def Field.tokens (f : Field) : List Token :=
  f.modifiers.map .modifier ++ .field f.name :: (optionTypeTokens f.typeRef ++
    f.initializer.elim [] fun v => .assign :: v.tokens .full)

def Statement.tokens (s : Statement) : List Token :=
  .part :: (s.keywords.map .modifier ++ s.value.elim [] fun v => v.tokens .full)

def Param.tokens (p : Param) : List Token :=
  .param p.name :: optionTypeTokens p.typeRef

def MethodBody.tokens : MethodBody → List Token
  | .widget w => .assign :: w.tokens .full
  | .statements block =>
    .openProperties :: (block.flatMap Statement.tokens ++ [.closeProperties])

def Method.tokens (m : Method) : List Token :=
  m.modifiers.map .modifier ++ .method m.name :: .openParams ::
    (m.params.flatMap Param.tokens ++
      .closeParams :: (optionTypeTokens m.returnType ++ m.body.tokens))

def ClassDecl.tokens (c : ClassDecl) : List Token :=
  .classDecl c.name ::
    (c.superType.elim [] (fun t => .openArgs :: (t.tokens ++ [.closeArgs])) ++
      .part :: (c.fields.flatMap Field.tokens ++
        .part :: c.methods.flatMap Method.tokens))

mutual

/-- The tokens of a tree in full detail. -/
def Node.tokens : Node → List Token
  | .classDecl c => c.tokens
  | .method m => m.tokens
  | .widget w => w.tokens .full
  | .literal l => [.literal l]
  | .unit items => .unit :: nodeTokens items

def nodeTokens : List Node → List Token
  | [] => []
  | n :: ns => .item :: (n.tokens ++ nodeTokens ns)

end

/-! ## Fingerprints

A shape is identified by the first 128 bits of the SHA-256 hash of its tokens, with the unit
separator U+001F between each two of them.
-/

/-- The character between two tokens. -/
def tokenSeparator : String :=
  "\x1f"

/-- The text of a token sequence that is hashed. -/
def joinTokens (tokens : List Token) : String :=
  tokenSeparator.intercalate (tokens.map Token.text)

/-- The fingerprint of a text: 32 lower-case hexadecimal digits. -/
def fingerprintText (text : String) : String :=
  Digest.hex ((Digest.sha256 text.toUTF8.data).take 16)

def fingerprintTokens (tokens : List Token) : String :=
  fingerprintText (joinTokens tokens)

/-- The fingerprint of a widget is the one of its shape. -/
def Widget.fingerprint (w : Widget) : String :=
  fingerprintTokens w.shape

end WidgetShorthand
