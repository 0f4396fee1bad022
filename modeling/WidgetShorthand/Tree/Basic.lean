/-!
# Declaration trees

The trees that the notation writes down: classes, methods, widgets, literals, and units of several
of them. The order of properties and of children matters everywhere. A value is a scalar, a widget
or a list; only scalars can fill the slots of a pattern, so they are a type of their own.
-/

namespace WidgetShorthand

/-- The kinds of literals. -/
inductive LiteralKind where
  | string
  | number
  | bool
  | null
  deriving DecidableEq, Repr

/-- The name of a kind, as messages, tokens and records spell it. -/
def LiteralKind.name : LiteralKind → String
  | .string => "string"
  | .number => "number"
  | .bool => "bool"
  | .null => "null"

/-- A literal: the bare content of a string, the source text of anything else. -/
structure Literal where
  kind : LiteralKind
  raw : String
  deriving DecidableEq, Repr

/-- A value without parts. -/
inductive Scalar where
  | literal (value : Literal)
  /-- An identifier or a dotted path of identifiers. -/
  | ident (name : String)
  /-- The text of an expression, carried as it is. -/
  | expr (text : String)
  deriving DecidableEq, Repr

mutual

/-- A widget with its named properties and its child widgets. -/
structure Widget where
  typeName : String
  properties : List Property
  children : List Widget

/-- A property of a widget. -/
structure Property where
  key : String
  value : Value

/-- What a property, a field or a statement can hold. -/
inductive Value where
  | scalar (scalar : Scalar)
  | widget (widget : Widget)
  | list (items : List Value)

end

/-- A type with its arguments. -/
structure TypeRef where
  name : String
  args : List TypeRef

/-! ## Equality

The type classes of the library do not reach through the lists inside these types, so the decision
procedures are spelled out, one function to each kind of node and of list.
-/

mutual

def Widget.decEq : (a b : Widget) → Decidable (a = b)
  | ⟨t, ps, cs⟩, ⟨t', ps', cs'⟩ =>
    have := decEqProperties ps ps'
    have := decEqChildren cs cs'
    decidable_of_iff (t = t' ∧ ps = ps' ∧ cs = cs') (by simp)

def decEqProperties : (a b : List Property) → Decidable (a = b)
  | [], [] => isTrue rfl
  | [], _ :: _ => isFalse (by simp)
  | _ :: _, [] => isFalse (by simp)
  | ⟨k, v⟩ :: ps, ⟨k', v'⟩ :: ps' =>
    have := Value.decEq v v'
    have := decEqProperties ps ps'
    decidable_of_iff ((k = k' ∧ v = v') ∧ ps = ps') (by simp)

def decEqChildren : (a b : List Widget) → Decidable (a = b)
  | [], [] => isTrue rfl
  | [], _ :: _ => isFalse (by simp)
  | _ :: _, [] => isFalse (by simp)
  | c :: cs, c' :: cs' =>
    have := Widget.decEq c c'
    have := decEqChildren cs cs'
    decidable_of_iff (c = c' ∧ cs = cs') (by simp)

def Value.decEq : (a b : Value) → Decidable (a = b)
  | .scalar s, .scalar t => decidable_of_iff (s = t) (by simp)
  | .widget w, .widget v =>
    have := Widget.decEq w v
    decidable_of_iff (w = v) (by simp)
  | .list xs, .list ys =>
    have := decEqItems xs ys
    decidable_of_iff (xs = ys) (by simp)
  | .scalar _, .widget _ | .scalar _, .list _ | .widget _, .scalar _ | .widget _, .list _
  | .list _, .scalar _ | .list _, .widget _ => isFalse (by simp)

def decEqItems : (a b : List Value) → Decidable (a = b)
  | [], [] => isTrue rfl
  | [], _ :: _ => isFalse (by simp)
  | _ :: _, [] => isFalse (by simp)
  | v :: vs, v' :: vs' =>
    have := Value.decEq v v'
    have := decEqItems vs vs'
    decidable_of_iff (v = v' ∧ vs = vs') (by simp)

end

mutual

def TypeRef.decEq : (a b : TypeRef) → Decidable (a = b)
  | ⟨n, ts⟩, ⟨n', ts'⟩ =>
    have := decEqTypeRefs ts ts'
    decidable_of_iff (n = n' ∧ ts = ts') (by simp)

def decEqTypeRefs : (a b : List TypeRef) → Decidable (a = b)
  | [], [] => isTrue rfl
  | [], _ :: _ => isFalse (by simp)
  | _ :: _, [] => isFalse (by simp)
  | t :: ts, t' :: ts' =>
    have := TypeRef.decEq t t'
    have := decEqTypeRefs ts ts'
    decidable_of_iff (t = t' ∧ ts = ts') (by simp)

end

instance : DecidableEq Widget := Widget.decEq

instance : DecidableEq Value := Value.decEq

instance : DecidableEq TypeRef := TypeRef.decEq

instance : DecidableEq Property := fun a b =>
  decidable_of_iff (a.key = b.key ∧ a.value = b.value) (by cases a; cases b; simp)

/-! ## Declarations -/

/-- A parameter of a method. -/
structure Param where
  name : String
  typeRef : Option TypeRef
  deriving DecidableEq

/-- A field of a class. -/
structure Field where
  modifiers : List String
  name : String
  typeRef : Option TypeRef
  initializer : Option Value
  deriving DecidableEq

/-- A statement: keywords such as `return`, and a value. -/
structure Statement where
  keywords : List String
  value : Option Value
  deriving DecidableEq

/-- The body of a method: the widget that it builds, or statements. -/
inductive MethodBody where
  | widget (widget : Widget)
  | statements (statements : List Statement)
  deriving DecidableEq

structure Method where
  modifiers : List String
  name : String
  params : List Param
  returnType : Option TypeRef
  body : MethodBody
  deriving DecidableEq

structure ClassDecl where
  name : String
  superType : Option TypeRef
  fields : List Field
  methods : List Method
  deriving DecidableEq

/-- The root of a tree. Units are meant to stand at the top only; what writes a tree checks that. -/
inductive Node where
  | classDecl (decl : ClassDecl)
  | method (method : Method)
  | widget (widget : Widget)
  | literal (literal : Literal)
  | unit (items : List Node)

mutual

def Node.decEq : (a b : Node) → Decidable (a = b)
  | .classDecl c, .classDecl d => decidable_of_iff (c = d) (by simp)
  | .method m, .method n => decidable_of_iff (m = n) (by simp)
  | .widget w, .widget v => decidable_of_iff (w = v) (by simp)
  | .literal l, .literal m => decidable_of_iff (l = m) (by simp)
  | .unit xs, .unit ys =>
    have := decEqNodes xs ys
    decidable_of_iff (xs = ys) (by simp)
  | .classDecl _, .method _ | .classDecl _, .widget _ | .classDecl _, .literal _
  | .classDecl _, .unit _ | .method _, .classDecl _ | .method _, .widget _ | .method _, .literal _
  | .method _, .unit _ | .widget _, .classDecl _ | .widget _, .method _ | .widget _, .literal _
  | .widget _, .unit _ | .literal _, .classDecl _ | .literal _, .method _ | .literal _, .widget _
  | .literal _, .unit _ | .unit _, .classDecl _ | .unit _, .method _ | .unit _, .widget _
  | .unit _, .literal _ => isFalse (by simp)

def decEqNodes : (a b : List Node) → Decidable (a = b)
  | [], [] => isTrue rfl
  | [], _ :: _ => isFalse (by simp)
  | _ :: _, [] => isFalse (by simp)
  | n :: ns, n' :: ns' =>
    have := Node.decEq n n'
    have := decEqNodes ns ns'
    decidable_of_iff (n = n' ∧ ns = ns') (by simp)

end

instance : DecidableEq Node := Node.decEq

/-! ## Parts -/

/-- The value of the first property with a key. -/
def Widget.property? (w : Widget) (key : String) : Option Value :=
  (w.properties.find? (·.key == key)).map (·.value)

/-- The scalar that a value is, if it is one. -/
def Value.scalar? : Value → Option Scalar
  | .scalar s => some s
  | _ => none

def Value.isScalar (v : Value) : Bool :=
  v.scalar?.isSome

/-- A string literal with the given content. -/
def Scalar.string (content : String) : Scalar :=
  .literal ⟨.string, content⟩

def Scalar.number (spelling : String) : Scalar :=
  .literal ⟨.number, spelling⟩

def Scalar.bool (value : Bool) : Scalar :=
  .literal ⟨.bool, if value then "true" else "false"⟩

def Scalar.null : Scalar :=
  .literal ⟨.null, "null"⟩

end WidgetShorthand
