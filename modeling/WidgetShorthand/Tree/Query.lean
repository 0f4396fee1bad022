import WidgetShorthand.Tree.Basic

/-!
# Measures of a tree

The widgets of a tree, its number of nodes, and its nesting depth. All three see the same widgets:
children, widgets in property values and inside lists, field initializers, statement values and
method bodies. Widgets are listed in pre-order, with the ones in properties before the children.
-/

namespace WidgetShorthand

/-! ## Widgets in pre-order -/

mutual

/-- The widget itself and every widget inside it. -/
def Widget.subtrees : Widget → List Widget
  | ⟨t, ps, cs⟩ => ⟨t, ps, cs⟩ :: (propertySubtrees ps ++ childSubtrees cs)

def propertySubtrees : List Property → List Widget
  | [] => []
  | ⟨_, v⟩ :: ps => v.subtrees ++ propertySubtrees ps

def childSubtrees : List Widget → List Widget
  | [] => []
  | c :: cs => c.subtrees ++ childSubtrees cs

def Value.subtrees : Value → List Widget
  | .scalar _ => []
  | .widget w => w.subtrees
  | .list items => itemSubtrees items

def itemSubtrees : List Value → List Widget
  | [] => []
  | v :: vs => v.subtrees ++ itemSubtrees vs

end

/-- The widgets of a value that may be missing. -/
def optionSubtrees (v : Option Value) : List Widget :=
  v.elim [] Value.subtrees

def MethodBody.subtrees : MethodBody → List Widget
  | .widget w => w.subtrees
  | .statements block => block.flatMap fun s => optionSubtrees s.value

def ClassDecl.subtrees (c : ClassDecl) : List Widget :=
  c.fields.flatMap (fun f => optionSubtrees f.initializer) ++
    c.methods.flatMap fun m => m.body.subtrees

mutual

/-- Every widget of a tree in pre-order. -/
def Node.widgets : Node → List Widget
  | .classDecl c => c.subtrees
  | .method m => m.body.subtrees
  | .widget w => w.subtrees
  | .literal _ => []
  | .unit items => nodeWidgets items

def nodeWidgets : List Node → List Widget
  | [] => []
  | n :: ns => n.widgets ++ nodeWidgets ns

end

/-! ## Number of nodes -/

/-- The sum of several counts. -/
def total (counts : List Nat) : Nat :=
  counts.foldr (· + ·) 0

mutual

/-- A widget counts one, and so does each property in addition to its value. -/
def Widget.nodeCount : Widget → Nat
  | ⟨_, ps, cs⟩ => 1 + propertyNodeCount ps + childNodeCount cs

def propertyNodeCount : List Property → Nat
  | [] => 0
  | ⟨_, v⟩ :: ps => 1 + v.nodeCount + propertyNodeCount ps

def childNodeCount : List Widget → Nat
  | [] => 0
  | c :: cs => c.nodeCount + childNodeCount cs

/-- A scalar counts one, a list one more than its items, a widget in value position no more than
itself. -/
def Value.nodeCount : Value → Nat
  | .scalar _ => 1
  | .widget w => w.nodeCount
  | .list items => 1 + itemNodeCount items

def itemNodeCount : List Value → Nat
  | [] => 0
  | v :: vs => v.nodeCount + itemNodeCount vs

end

def optionNodeCount (v : Option Value) : Nat :=
  v.elim 0 Value.nodeCount

def MethodBody.nodeCount : MethodBody → Nat
  | .widget w => w.nodeCount
  | .statements block => total (block.map fun s => 1 + optionNodeCount s.value)

/-- A method counts one, and one for each parameter. -/
def Method.nodeCount (m : Method) : Nat :=
  1 + m.params.length + m.body.nodeCount

def ClassDecl.nodeCount (c : ClassDecl) : Nat :=
  1 + total (c.fields.map fun f => 1 + optionNodeCount f.initializer) +
    total (c.methods.map Method.nodeCount)

mutual

/-- The nodes of a tree; a unit counts only its items. -/
def Node.nodeCount : Node → Nat
  | .classDecl c => c.nodeCount
  | .method m => m.nodeCount
  | .widget w => w.nodeCount
  | .literal _ => 1
  | .unit items => nodeListCount items

def nodeListCount : List Node → Nat
  | [] => 0
  | n :: ns => n.nodeCount + nodeListCount ns

end

/-! ## Nesting depth -/

/-- The greatest of several depths; zero when there is none. -/
def deepest (depths : List Nat) : Nat :=
  depths.foldr max 0

mutual

/-- How deep widgets are nested, the outermost one included. -/
def Widget.depth : Widget → Nat
  | ⟨_, ps, cs⟩ => 1 + max (propertyDepth ps) (childDepth cs)

def propertyDepth : List Property → Nat
  | [] => 0
  | ⟨_, v⟩ :: ps => max v.depth (propertyDepth ps)

def childDepth : List Widget → Nat
  | [] => 0
  | c :: cs => max c.depth (childDepth cs)

/-- Only widgets count: a list is no deeper than its items. -/
def Value.depth : Value → Nat
  | .scalar _ => 0
  | .widget w => w.depth
  | .list items => itemDepth items

def itemDepth : List Value → Nat
  | [] => 0
  | v :: vs => max v.depth (itemDepth vs)

end

def optionDepth (v : Option Value) : Nat :=
  v.elim 0 Value.depth

def MethodBody.depth : MethodBody → Nat
  | .widget w => w.depth
  | .statements block => deepest (block.map fun s => optionDepth s.value)

def ClassDecl.depth (c : ClassDecl) : Nat :=
  max (deepest (c.fields.map fun f => optionDepth f.initializer))
    (deepest (c.methods.map fun m => m.body.depth))

mutual

/-- The deepest nesting of widgets in a tree; zero when it has none. -/
def Node.depth : Node → Nat
  | .classDecl c => c.depth
  | .method m => m.body.depth
  | .widget w => w.depth
  | .literal _ => 0
  | .unit items => nodeListDepth items

def nodeListDepth : List Node → Nat
  | [] => 0
  | n :: ns => max n.depth (nodeListDepth ns)

end

end WidgetShorthand
