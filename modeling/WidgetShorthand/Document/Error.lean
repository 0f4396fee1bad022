import WidgetShorthand.Symbol.Basic
import WidgetShorthand.Text.Message

/-!
# Errors of documents

Why a tree cannot be written, and why a text is no document. An error of reading says where in the
text it was found, as an offset in bytes.
-/

namespace WidgetShorthand

/-! ## Writing -/

/-- What a name that cannot be written was the name of. -/
inductive NamePlace where
  | classDecl
  | field
  | method
  | parameter
  | keyword
  | type
  | property
  | value
  deriving DecidableEq, Repr

def NamePlace.name : NamePlace → String
  | .classDecl => "class"
  | .field => "field"
  | .method => "method"
  | .parameter => "parameter"
  | .keyword => "keyword"
  | .type => "type"
  | .property => "property"
  | .value => "value"

inductive EncodeError where
  | invalidIdentifier (place : NamePlace) (value : String)
  | invalidNumber (raw : String)
  /-- A literal for `true` and `false` has another text. -/
  | invalidBool (raw : String)
  /-- A literal for the null value has another text. -/
  | invalidNull (raw : String)
  | nestedUnit
  | emptyStatement
  | depthLimitExceeded (limit : Nat)
  deriving DecidableEq, Repr

def EncodeError.message : EncodeError → String
  | .invalidIdentifier place value => s!"Invalid {place.name} identifier: {Text.showText value}"
  | .invalidNumber raw => s!"Invalid number literal: {Text.showText raw}"
  | .invalidBool raw => s!"Invalid bool literal: {Text.showText raw}"
  | .invalidNull raw => s!"Invalid null literal: {Text.showText raw}"
  | .nestedUnit => "Units cannot be nested"
  | .emptyStatement => "Statement has neither keywords nor a value"
  | .depthLimitExceeded limit => s!"Nesting exceeds depth limit {limit}"

/-! ## Reading -/

/-- What a reader is looking for. It is part of the message when brackets do not match. -/
inductive Expectation where
  | node
  | propertyKeyOrClose
  | propertyValue
  | childOrClose
  | stringBody
  deriving DecidableEq, Repr

namespace Expectation

def all : List Expectation :=
  [.node, .propertyKeyOrClose, .propertyValue, .childOrClose, .stringBody]

def message : Expectation → String
  | .node => "expected a node"
  | .propertyKeyOrClose => "expected a property key or '\x7d'"
  | .propertyValue => "expected a property value"
  | .childOrClose => "expected a child widget or ']'"
  | .stringBody => "inside a string"

end Expectation

/-- What would have been right in the place of what was found. -/
inductive Wanted where
  | char (c : Char)
  | endOfInput
  | identifier
  | nameAfterMark
  | propertyNameAfterMark
  | dotAfterKeyword
  | methodBody
  | widget
  | propertyKeyOrClose
  | referenceId
  | number
  | quoteAfterMark
  | value
  deriving DecidableEq, Repr

def Wanted.message : Wanted → String
  | .char c => s!"expected '{c}'"
  | .endOfInput => "expected end of input"
  | .identifier => "expected an identifier"
  | .nameAfterMark => "expected a name after '!'"
  | .propertyNameAfterMark => "expected a property name after '!'"
  | .dotAfterKeyword => "expected '.' after keyword"
  | .methodBody => "expected '=' or '\x7b' to start a method body"
  | .widget => "expected a widget"
  | .propertyKeyOrClose => "expected a property key or '\x7d'"
  | .referenceId => "expected a reference id after '@'"
  | .number => "expected a number"
  | .quoteAfterMark => "expected '\"' after '&'"
  | .value => "expected a value"

/-- The kinds of faults. -/
inductive FaultKind where
  | unterminatedString
  | unbalancedBracket
  | unknownShortCode
  | unknownReferenceId
  | unexpectedToken
  | invalidEscape
  | arityMismatch
  | depthLimitExceeded
  deriving DecidableEq, Repr

def FaultKind.message : FaultKind → String
  | .unterminatedString => "unterminated string"
  | .unbalancedBracket => "unbalanced bracket"
  | .unknownShortCode => "unknown short code"
  | .unknownReferenceId => "unknown reference id"
  | .unexpectedToken => "unexpected token"
  | .invalidEscape => "invalid escape"
  | .arityMismatch => "argument count mismatch"
  | .depthLimitExceeded => "nesting too deep"

/-- What is wrong with a text. -/
inductive Fault where
  /-- The text ends while the bracket from byte `position` is open. -/
  | openAtEnd (bracket : Char) (position : Nat) (expecting : Expectation)
  /-- A closing bracket does not match the innermost open one. -/
  | strayCloser (closer : Char) (expecting : Expectation)
  | endOfInput (wanted : Wanted)
  | found (c : Char) (wanted : Wanted)
  | endInString
  | endAfterEscape
  | badEscape (c : Char)
  | unknownCode (category : Category) (short : String)
  | unknownReference (id : String)
  | tooManyArguments (id : String) (arity : Nat)
  | unresolvedSlot (id : String)
  | argumentNotScalar
  | emptyStatement
  | nestedUnit
  | unknownDeclaration (name : String)
  | notLiteral
  | notConstant
  | tooDeep (limit : Nat)
  deriving DecidableEq, Repr

namespace Fault

def kind : Fault → FaultKind
  | .openAtEnd .. | .strayCloser .. => .unbalancedBracket
  | .endInString | .endAfterEscape => .unterminatedString
  | .badEscape _ => .invalidEscape
  | .unknownCode .. => .unknownShortCode
  | .unknownReference _ => .unknownReferenceId
  | .tooManyArguments .. => .arityMismatch
  | .tooDeep _ => .depthLimitExceeded
  | .endOfInput _ | .found .. | .unresolvedSlot _ | .argumentNotScalar | .emptyStatement
  | .nestedUnit | .unknownDeclaration _ | .notLiteral | .notConstant => .unexpectedToken

/-- What is wrong, in words. -/
def detail : Fault → String
  | .openAtEnd bracket position expecting =>
    s!"end of input with '{bracket}' from byte {position} still open ({expecting.message})"
  | .strayCloser closer expecting =>
    s!"'{closer}' does not close any open bracket ({expecting.message})"
  | .endOfInput wanted => "unexpected end of input, " ++ wanted.message
  | .found c wanted => s!"found '{c}', {wanted.message}"
  | .endInString => "end of input inside a string"
  | .endAfterEscape => "end of input after escape character"
  | .badEscape c => "'\\" ++ s!"{c}' is not a valid escape"
  | .unknownCode category short => s!"unknown {category.name} code '{short}'"
  | .unknownReference id => s!"no registered pattern '{id}'"
  | .tooManyArguments id arity => s!"'{id}' takes {arity} arguments, got more"
  | .unresolvedSlot id => s!"slot of '{id}' does not resolve"
  | .argumentNotScalar => "reference arguments must be scalars"
  | .emptyStatement => "empty statement"
  | .nestedUnit => "units cannot be nested"
  | .unknownDeclaration name => s!"unknown declaration prefix '{name}:'"
  | .notLiteral => "expected a literal"
  | .notConstant => "expected '~1', '~0' or '~_'"
  | .tooDeep limit => s!"nesting deeper than {limit}"

end Fault

/-- A fault and its position in bytes. -/
structure ParseError where
  position : Nat
  fault : Fault
  deriving DecidableEq, Repr

def ParseError.message (e : ParseError) : String :=
  s!"{e.fault.kind.message} at byte {e.position}: {e.fault.detail}"

end WidgetShorthand
