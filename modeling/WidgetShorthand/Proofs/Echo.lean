import WidgetShorthand.Document.Encode

/-!
# What comes back

Writing a tree loses something only where a reference stands for another widget than the one that it
replaces. The echo of a tree is the tree with every such widget exchanged: it is what reading the
document gives. What a reference stands for is a parameter, since it is the reader's registry that
decides it.

The widgets that are written in full are those above all references. Whether writing the echo gives
the same document again depends on these alone.
-/

namespace WidgetShorthand

namespace Encoder

variable (e : Encoder) (stand : Entry → Widget → Widget)

/-! ## Echoes -/

mutual

/-- The widget that is read where a widget was written. -/
def echoWidget : Widget → Widget
  | ⟨t, ps, cs⟩ =>
    match e.matchPattern? ⟨t, ps, cs⟩ with
    | some entry => stand entry ⟨t, ps, cs⟩
    | none => ⟨t, echoProperties ps, echoChildren cs⟩

def echoProperties : List Property → List Property
  | [] => []
  | ⟨key, v⟩ :: ps => ⟨key, echoValue v⟩ :: echoProperties ps

def echoChildren : List Widget → List Widget
  | [] => []
  | c :: cs => echoWidget c :: echoChildren cs

def echoValue : Value → Value
  | .scalar s => .scalar s
  | .widget w => .widget (echoWidget w)
  | .list items => .list (echoItems items)

def echoItems : List Value → List Value
  | [] => []
  | v :: vs => echoValue v :: echoItems vs

end

def echoField (f : Field) : Field :=
  { f with initializer := f.initializer.map (e.echoValue stand) }

def echoStatement (s : Statement) : Statement :=
  { s with value := s.value.map (e.echoValue stand) }

def echoBody : MethodBody → MethodBody
  | .widget w => .widget (e.echoWidget stand w)
  | .statements block => .statements (block.map (e.echoStatement stand))

def echoMethod (m : Method) : Method :=
  { m with body := e.echoBody stand m.body }

def echoClass (c : ClassDecl) : ClassDecl :=
  { c with
    fields := c.fields.map (e.echoField stand)
    methods := c.methods.map (e.echoMethod stand) }

/-- The echo of an item; units are no items. -/
def echoItem : Node → Node
  | .classDecl c => .classDecl (e.echoClass stand c)
  | .method m => .method (e.echoMethod stand m)
  | .widget w => .widget (e.echoWidget stand w)
  | n => n

def echo : Node → Node
  | .unit items => .unit (items.map (e.echoItem stand))
  | n => e.echoItem stand n

/-! ## Trees that come back unchanged -/

/-- A reference in the place of the widget would stand for the widget itself. -/
def Keeps (w : Widget) : Prop :=
  ∀ entry, e.matchPattern? w = some entry → stand entry w = w

variable {e stand}

mutual

theorem echoWidget_eq_self : (w : Widget) → (∀ v ∈ w.subtrees, e.Keeps stand v) →
    e.echoWidget stand w = w
  | ⟨t, ps, cs⟩, h => by
      rw [Widget.subtrees, List.forall_mem_cons, List.forall_mem_append] at h
      obtain ⟨hself, hps, hcs⟩ := h
      cases hmatch : e.matchPattern? ⟨t, ps, cs⟩ with
      | some entry => simp only [echoWidget, hmatch, hself entry hmatch]
      | none =>
          simp only [echoWidget, hmatch]
          rw [echoProperties_eq_self ps hps, echoChildren_eq_self cs hcs]

theorem echoProperties_eq_self : (ps : List Property) →
    (∀ v ∈ propertySubtrees ps, e.Keeps stand v) → e.echoProperties stand ps = ps
  | [], _ => by rw [echoProperties]
  | ⟨key, v⟩ :: ps, h => by
      rw [propertySubtrees, List.forall_mem_append] at h
      rw [echoProperties, echoValue_eq_self v h.1, echoProperties_eq_self ps h.2]

theorem echoChildren_eq_self : (cs : List Widget) →
    (∀ v ∈ childSubtrees cs, e.Keeps stand v) → e.echoChildren stand cs = cs
  | [], _ => by rw [echoChildren]
  | c :: cs, h => by
      rw [childSubtrees, List.forall_mem_append] at h
      rw [echoChildren, echoWidget_eq_self c h.1, echoChildren_eq_self cs h.2]

theorem echoValue_eq_self : (v : Value) → (∀ w ∈ v.subtrees, e.Keeps stand w) →
    e.echoValue stand v = v
  | .scalar s, _ => by rw [echoValue]
  | .widget w, h => by
      rw [Value.subtrees] at h
      rw [echoValue, echoWidget_eq_self w h]
  | .list vs, h => by
      rw [Value.subtrees] at h
      rw [echoValue, echoItems_eq_self vs h]

theorem echoItems_eq_self : (vs : List Value) → (∀ w ∈ itemSubtrees vs, e.Keeps stand w) →
    e.echoItems stand vs = vs
  | [], _ => by rw [echoItems]
  | v :: vs, h => by
      rw [itemSubtrees, List.forall_mem_append] at h
      rw [echoItems, echoValue_eq_self v h.1, echoItems_eq_self vs h.2]

end

theorem map_eq_self {α : Type} {f : α → α} {xs : List α} (h : ∀ x ∈ xs, f x = x) :
    xs.map f = xs := by
  rw [List.map_congr_left h, List.map_id']

theorem echoOption_eq_self {v : Option Value} (h : ∀ w ∈ optionSubtrees v, e.Keeps stand w) :
    v.map (e.echoValue stand) = v := by
  cases v with
  | none => rfl
  | some v => exact congrArg some (echoValue_eq_self v h)

theorem echoBody_eq_self {b : MethodBody} (h : ∀ w ∈ b.subtrees, e.Keeps stand w) :
    e.echoBody stand b = b := by
  cases b with
  | widget w => exact congrArg MethodBody.widget (echoWidget_eq_self w h)
  | statements block =>
      refine congrArg MethodBody.statements (map_eq_self fun s hs => ?_)
      have hvalue : s.value.map (e.echoValue stand) = s.value :=
        echoOption_eq_self fun w hw => h w (List.mem_flatMap_of_mem hs hw)
      rw [echoStatement, hvalue]

theorem echoClass_eq_self {c : ClassDecl} (h : ∀ w ∈ c.subtrees, e.Keeps stand w) :
    e.echoClass stand c = c := by
  rw [ClassDecl.subtrees, List.forall_mem_append] at h
  have hfields : c.fields.map (e.echoField stand) = c.fields := by
    refine map_eq_self fun f hf => ?_
    have hvalue : f.initializer.map (e.echoValue stand) = f.initializer :=
      echoOption_eq_self fun w hw => h.1 w (List.mem_flatMap_of_mem hf hw)
    rw [echoField, hvalue]
  have hmethods : c.methods.map (e.echoMethod stand) = c.methods := by
    refine map_eq_self fun m hm => ?_
    rw [echoMethod, echoBody_eq_self fun w hw => h.2 w (List.mem_flatMap_of_mem hm hw)]
  rw [echoClass, hfields, hmethods]

theorem echoItem_eq_self {n : Node} (h : ∀ w ∈ n.widgets, e.Keeps stand w) :
    e.echoItem stand n = n := by
  cases n with
  | classDecl c =>
      rw [Node.widgets] at h
      exact congrArg Node.classDecl (echoClass_eq_self h)
  | method m =>
      rw [Node.widgets] at h
      rw [echoItem, echoMethod, echoBody_eq_self h]
  | widget w =>
      rw [Node.widgets] at h
      exact congrArg Node.widget (echoWidget_eq_self w h)
  | literal l => rfl
  | unit items => rfl

theorem mem_nodeWidgets {ns : List Node} {n : Node} (hn : n ∈ ns) {w : Widget}
    (hw : w ∈ n.widgets) : w ∈ nodeWidgets ns := by
  induction ns with
  | nil => cases hn
  | cons m ns ih =>
      rw [nodeWidgets, List.mem_append]
      rcases List.mem_cons.mp hn with rfl | hn
      · exact .inl hw
      · exact .inr (ih hn)

/-- A tree comes back unchanged when no reference in it can stand for anything else. -/
theorem echo_eq_self {tree : Node} (h : ∀ w ∈ tree.widgets, e.Keeps stand w) :
    e.echo stand tree = tree := by
  cases tree with
  | unit items =>
      rw [Node.widgets] at h
      refine congrArg Node.unit (map_eq_self fun n hn => echoItem_eq_self fun w hw => ?_)
      exact h w (mem_nodeWidgets hn hw)
  | classDecl c => exact echoItem_eq_self h
  | method m => exact echoItem_eq_self h
  | widget w => exact echoItem_eq_self h
  | literal l => rfl

/-! ## Writers that match alike

The writer comes into an echo only through the patterns that it matches. -/

section

variable {e' : Encoder}

mutual

theorem echoWidget_congr (h : ∀ w, e.matchPattern? w = e'.matchPattern? w) : (w : Widget) →
    e.echoWidget stand w = e'.echoWidget stand w
  | ⟨t, ps, cs⟩ => by
      rw [echoWidget, echoWidget, h, echoProperties_congr h ps, echoChildren_congr h cs]

theorem echoProperties_congr (h : ∀ w, e.matchPattern? w = e'.matchPattern? w) :
    (ps : List Property) → e.echoProperties stand ps = e'.echoProperties stand ps
  | [] => by rw [echoProperties, echoProperties]
  | ⟨key, v⟩ :: ps => by
      rw [echoProperties, echoProperties, echoValue_congr h v, echoProperties_congr h ps]

theorem echoChildren_congr (h : ∀ w, e.matchPattern? w = e'.matchPattern? w) :
    (cs : List Widget) → e.echoChildren stand cs = e'.echoChildren stand cs
  | [] => by rw [echoChildren, echoChildren]
  | c :: cs => by
      rw [echoChildren, echoChildren, echoWidget_congr h c, echoChildren_congr h cs]

theorem echoValue_congr (h : ∀ w, e.matchPattern? w = e'.matchPattern? w) : (v : Value) →
    e.echoValue stand v = e'.echoValue stand v
  | .scalar s => by rw [echoValue, echoValue]
  | .widget w => by rw [echoValue, echoValue, echoWidget_congr h w]
  | .list vs => by rw [echoValue, echoValue, echoItems_congr h vs]

theorem echoItems_congr (h : ∀ w, e.matchPattern? w = e'.matchPattern? w) : (vs : List Value) →
    e.echoItems stand vs = e'.echoItems stand vs
  | [] => by rw [echoItems, echoItems]
  | v :: vs => by rw [echoItems, echoItems, echoValue_congr h v, echoItems_congr h vs]

end

theorem echo_congr (h : ∀ w, e.matchPattern? w = e'.matchPattern? w) (tree : Node) :
    e.echo stand tree = e'.echo stand tree := by
  have hwidget : e.echoWidget stand = e'.echoWidget stand := funext (echoWidget_congr h)
  have hvalue : e.echoValue stand = e'.echoValue stand := funext (echoValue_congr h)
  have hstatement : e.echoStatement stand = e'.echoStatement stand :=
    funext fun s => by rw [echoStatement, echoStatement, hvalue]
  have hbody : e.echoBody stand = e'.echoBody stand := by
    funext b
    cases b with
    | widget w => rw [echoBody, echoBody, hwidget]
    | statements block => rw [echoBody, echoBody, hstatement]
  have hmethod : e.echoMethod stand = e'.echoMethod stand :=
    funext fun m => by rw [echoMethod, echoMethod, hbody]
  have hfield : e.echoField stand = e'.echoField stand :=
    funext fun f => by rw [echoField, echoField, hvalue]
  have hitem : e.echoItem stand = e'.echoItem stand := by
    funext n
    cases n with
    | classDecl c => rw [echoItem, echoItem, echoClass, echoClass, hfield, hmethod]
    | method m => rw [echoItem, echoItem, hmethod]
    | widget w => rw [echoItem, echoItem, hwidget]
    | literal l => rfl
    | unit items => rfl
  cases tree with
  | unit items => rw [echo, echo, hitem]
  | classDecl c => rw [echo, echo, hitem] <;> nofun
  | method m => rw [echo, echo, hitem] <;> nofun
  | widget w => rw [echo, echo, hitem] <;> nofun
  | literal l => rfl

end

variable (e)

/-! ## Widgets that are written in full -/

mutual

def writtenWidget : Widget → List Widget
  | ⟨t, ps, cs⟩ =>
    match e.matchPattern? ⟨t, ps, cs⟩ with
    | some _ => []
    | none => ⟨t, ps, cs⟩ :: (writtenProperties ps ++ writtenChildren cs)

def writtenProperties : List Property → List Widget
  | [] => []
  | ⟨_, v⟩ :: ps => writtenValue v ++ writtenProperties ps

def writtenChildren : List Widget → List Widget
  | [] => []
  | c :: cs => writtenWidget c ++ writtenChildren cs

def writtenValue : Value → List Widget
  | .scalar _ => []
  | .widget w => writtenWidget w
  | .list items => writtenItems items

def writtenItems : List Value → List Widget
  | [] => []
  | v :: vs => writtenValue v ++ writtenItems vs

end

def writtenOption (v : Option Value) : List Widget :=
  v.elim [] e.writtenValue

def writtenBody : MethodBody → List Widget
  | .widget w => e.writtenWidget w
  | .statements block => block.flatMap fun s => e.writtenOption s.value

def writtenClass (c : ClassDecl) : List Widget :=
  c.fields.flatMap (fun f => e.writtenOption f.initializer) ++
    c.methods.flatMap fun m => e.writtenBody m.body

def writtenItem : Node → List Widget
  | .classDecl c => e.writtenClass c
  | .method m => e.writtenBody m.body
  | .widget w => e.writtenWidget w
  | .literal _ | .unit _ => []

/-- The widgets of a tree that its document spells out. -/
def written : Node → List Widget
  | .unit items => items.flatMap e.writtenItem
  | n => e.writtenItem n

end Encoder

end WidgetShorthand
