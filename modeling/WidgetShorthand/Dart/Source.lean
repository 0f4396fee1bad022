import WidgetShorthand.Tree.Basic

/-!
# Dart source

A tree written as Dart source, laid out for reading and for comparison up to white space. Properties
with keys `$0`, `$1` and so on are positional arguments and come before the named ones; children are
one more named argument. `indent` is the number of spaces for one level of nesting.
-/

namespace WidgetShorthand.Dart

/-- Whether a property key stands for a positional argument. -/
def isPositional (key : String) : Bool :=
  match key.toList with
  | '$' :: digits => !digits.isEmpty && digits.all Char.isDigit
  | _ => false

/-- A character inside a string literal. -/
def escapeChar (c : Char) : List Char :=
  if c = '\\' then ['\\', '\\']
  else if c = '"' then ['\\', '"']
  else if c = '$' then ['\\', '$']
  else if c = '\n' then ['\\', 'n']
  else [c]

/-- A string literal in double quotes. -/
def stringLiteral (s : String) : String :=
  String.ofList ('"' :: (s.toList.flatMap escapeChar ++ ['"']))

def literal (l : Literal) : String :=
  if l.kind = .string then stringLiteral l.raw else l.raw

def scalar : Scalar → String
  | .literal l => literal l
  | .ident name => name
  | .expr text => text

mutual

def typeRef : TypeRef → String
  | ⟨name, []⟩ => name
  | ⟨name, arg :: args⟩ => name ++ "<" ++ ", ".intercalate (typeRefs (arg :: args)) ++ ">"

def typeRefs : List TypeRef → List String
  | [] => []
  | t :: ts => typeRef t :: typeRefs ts

end

/-- The spaces at the start of a line. -/
def pad (indent level : Nat) : String :=
  String.ofList (List.replicate (indent * level) ' ')

/-- An argument list, each argument on a line of its own. -/
def argumentLines (indent level : Nat) (args : List String) : String :=
  if args.isEmpty then ")"
  else
    "\n" ++ String.join (args.map fun arg => pad indent (level + 1) ++ arg ++ ",\n") ++
      pad indent level ++ ")"

/-- The argument that holds the children, if there are any: one child alone, or a list with each
child on a line of its own. -/
def childrenArgument (indent level : Nat) : List String → List String
  | [] => []
  | [child] => ["child: " ++ child]
  | many =>
    ["children: [\n" ++
      String.join (many.map fun child => pad indent (level + 2) ++ child ++ ",\n") ++
      pad indent (level + 1) ++ "]"]

mutual

/-- A constructor call, on a line that is indented by `level`. An only child is one level further
in, several children are two. -/
def widget (indent level : Nat) : Widget → String
  | ⟨typeName, ps, cs⟩ =>
    let childLevel := if cs.length = 1 then level + 1 else level + 2
    typeName ++ "(" ++ argumentLines indent level
      (positional indent (level + 1) ps ++ (named indent (level + 1) ps ++
        childrenArgument indent level (children indent childLevel cs)))

/-- The positional arguments among properties. -/
def positional (indent level : Nat) : List Property → List String
  | [] => []
  | ⟨key, v⟩ :: ps =>
    if isPositional key then value indent level v :: positional indent level ps
    else positional indent level ps

/-- The named arguments among properties. -/
def named (indent level : Nat) : List Property → List String
  | [] => []
  | ⟨key, v⟩ :: ps =>
    if isPositional key then named indent level ps
    else (key ++ ": " ++ value indent level v) :: named indent level ps

def children (indent level : Nat) : List Widget → List String
  | [] => []
  | c :: cs => widget indent level c :: children indent level cs

def value (indent level : Nat) : Value → String
  | .scalar s => scalar s
  | .widget w => widget indent level w
  | .list xs => "[" ++ ", ".intercalate (items indent level xs) ++ "]"

def items (indent level : Nat) : List Value → List String
  | [] => []
  | v :: vs => value indent level v :: items indent level vs

end

/-- Modifiers at the start of a line: `override` is an annotation on a line before it. -/
def modifiers (indent level : Nat) (words : List String) : String :=
  (if words.contains "override" then pad indent level ++ "@override\n" else "") ++
    pad indent level ++
    String.join ((words.filter (· != "override")).map fun word => word ++ " ")

/-- A type in front of a name. -/
def typeBefore (t : Option TypeRef) : String :=
  t.elim "" fun t => typeRef t ++ " "

/-- A field with neither type nor modifiers is declared with `var`. -/
def field (indent level : Nat) (f : Field) : String :=
  let type := if f.typeRef.isNone && f.modifiers.isEmpty then "var " else typeBefore f.typeRef
  modifiers indent level f.modifiers ++ type ++ f.name ++
    f.initializer.elim "" (fun v => " = " ++ value indent level v) ++ ";\n"

def param (p : Param) : String :=
  typeBefore p.typeRef ++ p.name

def statement (indent level : Nat) (s : Statement) : String :=
  let gap := if s.keywords.isEmpty then "" else " "
  pad indent level ++ " ".intercalate s.keywords ++
    s.value.elim "" (fun v => gap ++ value indent level v) ++ ";\n"

def methodBody (indent level : Nat) : MethodBody → String
  | .widget w => pad indent level ++ "return " ++ widget indent level w ++ ";\n"
  | .statements block => String.join (block.map (statement indent level))

def method (indent level : Nat) (m : Method) : String :=
  modifiers indent level m.modifiers ++ typeBefore m.returnType ++ m.name ++ "(" ++
    ", ".intercalate (m.params.map param) ++ ") \x7b\n" ++ methodBody indent (level + 1) m.body ++
    pad indent level ++ "\x7d"

/-- The methods of a class; an empty line stands between members and before the first method if
there are fields. -/
def methods (indent level : Nat) (afterMember : Bool) : List Method → String
  | [] => ""
  | m :: ms =>
    (if afterMember then "\n" else "") ++ method indent level m ++ "\n" ++
      methods indent level true ms

def classDecl (indent level : Nat) (c : ClassDecl) : String :=
  pad indent level ++ "class " ++ c.name ++
    c.superType.elim "" (fun t => " extends " ++ typeRef t) ++ " \x7b\n" ++
    String.join (c.fields.map (field indent (level + 1))) ++
    methods indent (level + 1) (!c.fields.isEmpty) c.methods ++
    pad indent level ++ "\x7d"

mutual

/-- The source of a tree; the items of a unit have an empty line between them. -/
def source (indent : Nat) : Node → String
  | .classDecl c => classDecl indent 0 c
  | .method m => method indent 0 m
  | .widget w => widget indent 0 w
  | .literal l => literal l
  | .unit ns => "\n\n".intercalate (sources indent ns)

def sources (indent : Nat) : List Node → List String
  | [] => []
  | n :: ns => source indent n :: sources indent ns

end

/-- The number of spaces for a level where nothing else is asked for. -/
def defaultIndent : Nat :=
  2

end WidgetShorthand.Dart
