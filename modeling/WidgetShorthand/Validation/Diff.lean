import WidgetShorthand.Tree.Basic

/-!
# Differences of trees

What is different between a tree that was expected and the one that came out, each difference with
the place where it is. Lists of different length are not compared any further, and neither are
widgets of different types.
-/

namespace WidgetShorthand

/-- A kind of difference, with what was expected and what was found. -/
inductive Difference where
  /-- Different kinds of nodes or values. -/
  | variant (expected actual : String)
  | type (expected actual : String)
  | name (expected actual : String)
  | propertyKey (expected actual : String)
  | value (expected actual : String)
  | count (expected actual : Nat)
  /-- There is no other tree: the document cannot be read. -/
  | undecodable (message : String)
  deriving DecidableEq, Repr

/-- A difference and its place, such as `root.children[1].properties.key`. -/
structure Diff where
  path : String
  difference : Difference
  deriving DecidableEq, Repr

/-- A difference in words. -/
def Diff.text (d : Diff) : String :=
  match d.difference with
  | .variant expected actual | .type expected actual | .name expected actual
  | .propertyKey expected actual | .value expected actual =>
    s!"{d.path}: expected {expected}, got {actual}"
  | .count expected actual => s!"{d.path}: expected {expected} items, got {actual}"
  | .undecodable message => s!"{d.path}: {message}"

namespace Diff

/-- The place of an element of a list. -/
def element (path : String) (index : Nat) : String :=
  s!"{path}[{index}]"

/-- Nothing, or one difference at a place. -/
def unlessSame (same : Bool) (path : String) (difference : Difference) : List Diff :=
  if same then [] else [⟨path, difference⟩]

/-- Compares lists whose elements are compared by `compare`, if they are of the same length. -/
def lists (path : String) (expected actual : List α) (elements : List Diff) : List Diff :=
  if expected.length = actual.length then elements
  else [⟨path, .count expected.length actual.length⟩]

def names (path expected actual : String) : List Diff :=
  unlessSame (expected == actual) path (.name expected actual)

def modifiers (path : String) (expected actual : List String) : List Diff :=
  unlessSame (expected == actual) path (.name (" ".intercalate expected) (" ".intercalate actual))

/-- A type in a message: its name without arguments. -/
def typeName (t : Option TypeRef) : String :=
  t.elim "none" (·.name)

def types (path : String) (expected actual : Option TypeRef) : List Diff :=
  unlessSame (expected = actual) path (.type (typeName expected) (typeName actual))

/-- A literal in a message. -/
def literalText (l : Literal) : String :=
  l.kind.name ++ ":" ++ l.raw

def scalarVariant : Scalar → String
  | .literal _ => "literal"
  | .ident _ => "ident"
  | .expr _ => "expr"

def valueVariant : Value → String
  | .scalar s => scalarVariant s
  | .widget _ => "widget"
  | .list _ => "list"

def scalars (path : String) : (expected actual : Scalar) → List Diff
  | .literal l, .literal m => unlessSame (l = m) path (.value (literalText l) (literalText m))
  | .ident s, .ident t => unlessSame (s = t) path (.value s t)
  | .expr s, .expr t => unlessSame (s = t) path (.value s t)
  | s, t => [⟨path, .variant (scalarVariant s) (scalarVariant t)⟩]

mutual

def widgets (path : String) : (expected actual : Widget) → List Diff
  | ⟨t, ps, cs⟩, ⟨t', ps', cs'⟩ =>
    if t = t' then
      let propertiesPath := path ++ ".properties"
      let childrenPath := path ++ ".children"
      lists propertiesPath ps ps' (properties propertiesPath 0 ps ps') ++
        lists childrenPath cs cs' (children childrenPath 0 cs cs')
    else [⟨path, .type t t'⟩]
termination_by structural expected => expected

/-- Compares properties that are numbered from `index` on; the path of a value names its key. -/
def properties (path : String) (index : Nat) : (expected actual : List Property) → List Diff
  | ⟨k, v⟩ :: ps, ⟨k', v'⟩ :: ps' =>
    (if k = k' then values (path ++ "." ++ k) v v'
      else [⟨element path index, .propertyKey k k'⟩]) ++
      properties path (index + 1) ps ps'
  | _, _ => []
termination_by structural expected => expected

def children (path : String) (index : Nat) : (expected actual : List Widget) → List Diff
  | c :: cs, c' :: cs' => widgets (element path index) c c' ++ children path (index + 1) cs cs'
  | _, _ => []
termination_by structural expected => expected

def values (path : String) : (expected actual : Value) → List Diff
  | .scalar s, .scalar t => scalars path s t
  | .widget w, .widget v => widgets path w v
  | .list xs, .list ys => lists path xs ys (items path 0 xs ys)
  | v, w => [⟨path, .variant (valueVariant v) (valueVariant w)⟩]
termination_by structural expected => expected

def items (path : String) (index : Nat) : (expected actual : List Value) → List Diff
  | v :: vs, v' :: vs' => values (element path index) v v' ++ items path (index + 1) vs vs'
  | _, _ => []
termination_by structural expected => expected

end

/-- Compares values that may be missing; a missing one counts as no item. -/
def options (path : String) : (expected actual : Option Value) → List Diff
  | some v, some w => values path v w
  | none, none => []
  | some _, none => [⟨path, .count 1 0⟩]
  | none, some _ => [⟨path, .count 0 1⟩]

/-- Compares the elements of two lists one by one, numbered from `index` on. -/
def elements (compare : String → α → α → List Diff) (path : String) (index : Nat) :
    (expected actual : List α) → List Diff
  | x :: xs, y :: ys =>
    compare (element path index) x y ++ elements compare path (index + 1) xs ys
  | _, _ => []

/-- Compares two lists, element by element if they are of the same length. -/
def listsWith (compare : String → α → α → List Diff) (path : String) (expected actual : List α) :
    List Diff :=
  lists path expected actual (elements compare path 0 expected actual)

def fields (path : String) (a b : Field) : List Diff :=
  modifiers (path ++ ".modifiers") a.modifiers b.modifiers ++
    names (path ++ ".name") a.name b.name ++
    types (path ++ ".type") a.typeRef b.typeRef ++
    options (path ++ ".initializer") a.initializer b.initializer

def params (path : String) (a b : Param) : List Diff :=
  names path a.name b.name ++ types path a.typeRef b.typeRef

def statements (path : String) (a b : Statement) : List Diff :=
  modifiers path a.keywords b.keywords ++ options path a.value b.value

def methodBodies (path : String) : (expected actual : MethodBody) → List Diff
  | .widget w, .widget v => widgets path w v
  | .statements xs, .statements ys => listsWith statements path xs ys
  | _, _ => [⟨path, .variant "body" "other body"⟩]

def methods (path : String) (a b : Method) : List Diff :=
  modifiers (path ++ ".modifiers") a.modifiers b.modifiers ++
    names (path ++ ".name") a.name b.name ++
    listsWith params (path ++ ".params") a.params b.params ++
    types (path ++ ".returns") a.returnType b.returnType ++
    methodBodies (path ++ ".body") a.body b.body

def classDecls (path : String) (a b : ClassDecl) : List Diff :=
  names (path ++ ".name") a.name b.name ++
    types (path ++ ".extends") a.superType b.superType ++
    listsWith fields (path ++ ".fields") a.fields b.fields ++
    listsWith methods (path ++ ".methods") a.methods b.methods

def nodeVariant : Node → String
  | .classDecl _ => "class"
  | .method _ => "method"
  | .widget _ => "widget"
  | .literal _ => "literal"
  | .unit _ => "unit"

mutual

def nodes (path : String) : (expected actual : Node) → List Diff
  | .classDecl c, .classDecl d => classDecls path c d
  | .method m, .method n => methods path m n
  | .widget w, .widget v => widgets path w v
  | .literal l, .literal m => scalars path (.literal l) (.literal m)
  | .unit ns, .unit ns' => lists path ns ns' (nodeItems path 0 ns ns')
  | n, n' => [⟨path, .variant (nodeVariant n) (nodeVariant n')⟩]
termination_by structural expected => expected

def nodeItems (path : String) (index : Nat) : (expected actual : List Node) → List Diff
  | n :: ns, n' :: ns' => nodes (element path index) n n' ++ nodeItems path (index + 1) ns ns'
  | _, _ => []
termination_by structural expected => expected

end

end Diff

/-- The differences between two trees, in the order in which the trees are written. -/
def diff (expected actual : Node) : List Diff :=
  Diff.nodes "root" expected actual

end WidgetShorthand
