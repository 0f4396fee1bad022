import WidgetShorthand.Proofs.RoundTrip

/-!
# Scalars that a document spells

A name in value position is checked where it is written: it has to be a path. So the check sees the
scalars that a document spells, and no others. Where every widget is written in full, these are all
the scalars of the tree. A reference spells only its arguments, and what the sample of the pattern
has in the same slot is no argument; whatever a registered widget contains can be written again by a
reference, whether it is a path or not. With references to exact matches only, nothing else escapes
the check.

`Checks` is the statement of every part of the encoder. It lists the scalars that the part sees: all
of them are fine if the part succeeds, and a name that it rejects is one of them. So the scalars of
a sequence of parts are those of the parts together, and the lists follow the encoder function by
function.
-/

namespace WidgetShorthand

/-! ## The scalars of a tree -/

section Traversal

variable (cut : Widget → Option (List Scalar))

mutual

/-- The scalars of a widget in pre-order. A widget that is cut off contributes what the cut leaves
of it. -/
def Widget.scalarsUnder : Widget → List Scalar
  | ⟨t, ps, cs⟩ =>
    match cut ⟨t, ps, cs⟩ with
    | some left => left
    | none => propertyScalars ps ++ childScalars cs

def propertyScalars : List Property → List Scalar
  | [] => []
  | ⟨_, v⟩ :: ps => v.scalarsUnder ++ propertyScalars ps

def childScalars : List Widget → List Scalar
  | [] => []
  | c :: cs => c.scalarsUnder ++ childScalars cs

def Value.scalarsUnder : Value → List Scalar
  | .scalar s => [s]
  | .widget w => w.scalarsUnder
  | .list items => itemScalars items

def itemScalars : List Value → List Scalar
  | [] => []
  | v :: vs => v.scalarsUnder ++ itemScalars vs

end

def optionScalars (v : Option Value) : List Scalar :=
  v.elim [] (Value.scalarsUnder cut)

def MethodBody.scalarsUnder : MethodBody → List Scalar
  | .widget w => w.scalarsUnder cut
  | .statements block => block.flatMap fun s => optionScalars cut s.value

def ClassDecl.scalarsUnder (c : ClassDecl) : List Scalar :=
  c.fields.flatMap (fun f => optionScalars cut f.initializer) ++
    c.methods.flatMap fun m => m.body.scalarsUnder cut

mutual

def Node.scalarsUnder : Node → List Scalar
  | .classDecl c => c.scalarsUnder cut
  | .method m => m.body.scalarsUnder cut
  | .widget w => w.scalarsUnder cut
  | .literal l => [.literal l]
  | .unit items => nodeScalars items

def nodeScalars : List Node → List Scalar
  | [] => []
  | n :: ns => n.scalarsUnder ++ nodeScalars ns

end

end Traversal

/-- No widget is cut off. -/
def uncut (_ : Widget) : Option (List Scalar) :=
  none

/-- All scalars of a widget. -/
def Widget.scalars (w : Widget) : List Scalar :=
  w.scalarsUnder uncut

/-- All scalars of a tree, wherever they stand in it. -/
def Node.scalars (n : Node) : List Scalar :=
  n.scalarsUnder uncut

namespace Encoder

/-- Of a widget that is written as a reference, the arguments are left. -/
def cut (e : Encoder) (w : Widget) : Option (List Scalar) :=
  (e.matchPattern? w).map fun entry => (arguments entry w).flatMap Option.toList

/-- The scalars that the document of a tree spells. -/
def spelled (e : Encoder) (tree : Node) : List Scalar :=
  tree.scalarsUnder e.cut

end Encoder

/-! ## What is checked -/

/-- Among the scalars, a computation accepts no name that is not a path, and it rejects no name but
such a one. -/
structure Checks {α : Type} (x : Except EncodeError α) (scalars : List Scalar) : Prop where
  ok : ∀ a, x = .ok a → ∀ name, .ident name ∈ scalars → Text.isPath name = true
  error : ∀ name, x = .error (.invalidIdentifier .value name) →
    .ident name ∈ scalars ∧ Text.isPath name = false

section Rules

variable {α β : Type} {x : Except EncodeError α} {f : α → Except EncodeError β}
  {ss ss' : List Scalar}

theorem checks_ok (a : α) : Checks (.ok a) [] :=
  ⟨nofun, nofun⟩

theorem checks_error {err : EncodeError} (h : ∀ name, err ≠ .invalidIdentifier .value name)
    (ss : List Scalar) : Checks (.error err : Except EncodeError α) ss :=
  ⟨nofun, fun name heq => absurd (Except.error.inj heq) (h name)⟩

theorem Checks.map {g : α → β} (h : Checks x ss) : Checks (x.map g) ss := by
  cases x with
  | ok a => exact ⟨fun _ _ => h.ok a rfl, nofun⟩
  | error err => exact ⟨nofun, fun name heq => h.error name (congrArg _ (Except.error.inj heq))⟩

theorem Checks.bind (h : Checks x ss) (hf : ∀ a, Checks (f a) ss') :
    Checks (x >>= f) (ss ++ ss') := by
  cases x with
  | error err =>
      refine ⟨nofun, fun name heq => ?_⟩
      obtain ⟨hmem, hpath⟩ := h.error name (congrArg _ (Except.error.inj heq))
      exact ⟨List.mem_append_left _ hmem, hpath⟩
  | ok a =>
      constructor
      · intro b hb name hname
        rcases List.mem_append.mp hname with hname | hname
        · exact h.ok a rfl name hname
        · exact (hf a).ok b hb name hname
      · intro name heq
        obtain ⟨hmem, hpath⟩ := (hf a).error name heq
        exact ⟨List.mem_append_right _ hmem, hpath⟩

/-- In front of a part stands one that sees no scalars. -/
theorem Checks.after (h : Checks x []) (hf : ∀ a, Checks (f a) ss) : Checks (x >>= f) ss :=
  h.bind hf

/-- What comes last sees no scalars. -/
theorem Checks.before (h : Checks x ss) (hf : ∀ a, Checks (f a) []) : Checks (x >>= f) ss := by
  rw [← List.append_nil ss]
  exact h.bind hf

theorem checks_mapM {γ : Type} {f : γ → Except EncodeError α} {g : γ → List Scalar} {xs : List γ}
    (h : ∀ x ∈ xs, Checks (f x) (g x)) : Checks (xs.mapM f) (xs.flatMap g) := by
  induction xs with
  | nil => exact checks_ok []
  | cons x xs ih =>
      rw [List.forall_mem_cons] at h
      rw [List.mapM_cons, List.flatMap_cons]
      exact h.1.bind fun _ => (ih h.2).before fun _ => checks_ok _

theorem checks_mapM_nil {γ : Type} {f : γ → Except EncodeError α} {xs : List γ}
    (h : ∀ x ∈ xs, Checks (f x) []) : Checks (xs.mapM f) [] := by
  have hall := checks_mapM h
  rwa [List.flatMap_eq_nil_iff.mpr fun _ _ => rfl] at hall

end Rules

/-! ## Names and types see no scalars -/

section Names

variable {e : Encoder}

theorem checks_identifier {place : NamePlace} (h : place ≠ .value) (name : String) :
    Checks (Encoder.identifier place name) [] := by
  unfold Encoder.identifier
  split
  · exact checks_ok _
  · refine checks_error (fun name' heq => ?_) []
    cases heq
    exact h rfl

theorem checks_code {place : NamePlace} (h : place ≠ .value) (table : Table) (name : String) :
    Checks (Encoder.code table place name) [] := by
  unfold Encoder.code
  split
  · exact checks_ok _
  · exact (checks_identifier h name).map

theorem checks_propertyKey (key : String) : Checks (e.propertyKey key) [] := by
  unfold Encoder.propertyKey
  split
  · exact checks_ok _
  · exact (checks_identifier (by decide) key).map

theorem checks_keywords (words : List String) : Checks (e.keywords words) [] :=
  (checks_mapM_nil fun word _ => (checks_code (by decide) e.symbols.keywords word).map).map

theorem checks_tooDeep {α : Type} (ss : List Scalar) :
    Checks (.error e.tooDeep : Except EncodeError α) ss :=
  checks_error (by nofun) ss

mutual

theorem checks_typeRef : (t : TypeRef) → (levels : Nat) → Checks (e.typeRef levels t) []
  | ⟨name, []⟩, levels => by
      rw [Encoder.typeRef]
      exact (checks_code (by decide) _ name).map
  | ⟨name, arg :: args⟩, levels => by
      rw [Encoder.typeRef]
      refine (checks_code (by decide) _ name).after fun _ => ?_
      cases levels with
      | zero => exact checks_tooDeep []
      | succ levels => exact (checks_typeRefs (arg :: args) levels).after fun _ => checks_ok _

theorem checks_typeRefs : (ts : List TypeRef) → (levels : Nat) → Checks (e.typeRefs levels ts) []
  | [], levels => by
      rw [Encoder.typeRefs]
      exact checks_ok []
  | t :: ts, levels => by
      rw [Encoder.typeRefs]
      exact (checks_typeRef t levels).after fun _ =>
        (checks_typeRefs ts levels).after fun _ => checks_ok _

end

theorem checks_optionType (t : Option TypeRef) : Checks (e.declaredType t) [] := by
  cases t with
  | none => exact checks_ok _
  | some t => exact (checks_typeRef t _).map

theorem checks_param (p : Param) : Checks (e.param p) [] :=
  (checks_identifier (by decide) p.name).after fun _ =>
    (checks_optionType p.typeRef).after fun _ => checks_ok _

theorem checks_superType (t : Option TypeRef) : Checks (e.superType t) [] := by
  cases t with
  | none => exact checks_ok _
  | some t => exact (checks_typeRef t _).map

end Names

/-! ## Scalars and references -/

section Written

variable {e : Encoder}

theorem checks_literal (l : Literal) : Checks (Encoder.literal l) [.literal l] := by
  refine ⟨fun _ _ name hname => ?_, fun name heq => ?_⟩
  · cases List.mem_singleton.mp hname
  · unfold Encoder.literal at heq
    split at heq
    · cases heq
    · split at heq <;> cases heq
    · split at heq
      · cases heq
      · split at heq <;> cases heq
    · split at heq <;> cases heq

theorem checks_invalid {name : String} (h : Text.isPath name = false) :
    Checks (.error (.invalidIdentifier .value name) : Except EncodeError (List Char))
      [.ident name] := by
  refine ⟨fun a heq => absurd heq (by simp), fun name' heq => ?_⟩
  cases heq
  exact ⟨List.mem_singleton_self _, h⟩

theorem checks_scalar (s : Scalar) : Checks (e.scalar s) [s] := by
  cases s with
  | literal l => exact checks_literal l
  | ident name =>
      rw [Encoder.scalar]
      split
      · next hpath =>
          refine ⟨fun _ _ name' hname => ?_, fun name' heq => ?_⟩
          · cases List.mem_singleton.mp hname
            exact hpath
          · split at heq <;> cases heq
      · next hpath => exact checks_invalid (Bool.eq_false_iff.mpr hpath)
  | expr text =>
      refine ⟨fun _ _ name hname => ?_, fun name heq => ?_⟩
      · cases List.mem_singleton.mp hname
      · rw [Encoder.scalar] at heq
        split at heq <;> cases heq

theorem checks_argumentText (arg : Option Scalar) : Checks (e.argumentText arg) arg.toList := by
  cases arg with
  | none => exact checks_ok _
  | some s => exact (checks_scalar s).map

theorem checks_reference (entry : Entry) (w : Widget) :
    Checks (e.reference entry w) ((Encoder.arguments entry w).flatMap Option.toList) :=
  (checks_mapM fun arg _ => checks_argumentText arg).map

/-! ## Widgets and values -/

mutual

theorem checks_widget : (w : Widget) → (levels : Nat) →
    Checks (e.widget levels w) (w.scalarsUnder e.cut)
  | ⟨t, ps, cs⟩, 0 => by
      rw [Encoder.widget]
      exact checks_tooDeep _
  | ⟨t, ps, cs⟩, levels + 1 => by
      rw [Encoder.widget, Widget.scalarsUnder, Encoder.cut]
      cases e.matchPattern? ⟨t, ps, cs⟩ with
      | some entry => exact checks_reference entry _
      | none =>
          refine (checks_code (by decide) _ t).after fun _ => ?_
          refine (checks_properties ps levels).bind fun _ => ?_
          refine (checks_children cs levels).before fun _ => ?_
          split <;> exact checks_ok _

theorem checks_properties : (ps : List Property) → (levels : Nat) →
    Checks (e.properties levels ps) (propertyScalars e.cut ps)
  | [], levels => by
      rw [Encoder.properties, propertyScalars]
      exact checks_ok []
  | ⟨key, v⟩ :: ps, levels => by
      rw [Encoder.properties, propertyScalars]
      refine (checks_propertyKey key).after fun _ => ?_
      refine (checks_value v levels).bind fun _ => ?_
      exact (checks_properties ps levels).before fun _ => checks_ok _

theorem checks_children : (cs : List Widget) → (levels : Nat) →
    Checks (e.children levels cs) (childScalars e.cut cs)
  | [], levels => by
      rw [Encoder.children, childScalars]
      exact checks_ok []
  | c :: cs, levels => by
      rw [Encoder.children, childScalars]
      refine (checks_widget c levels).bind fun _ => ?_
      exact (checks_children cs levels).before fun _ => checks_ok _

theorem checks_value : (v : Value) → (levels : Nat) →
    Checks (e.value levels v) (v.scalarsUnder e.cut)
  | .scalar s, levels => by
      rw [Encoder.value, Value.scalarsUnder]
      exact (checks_scalar s).map
  | .widget w, levels => by
      rw [Encoder.value, Value.scalarsUnder]
      exact checks_widget w levels
  | .list items, 0 => by
      rw [Encoder.value]
      exact checks_tooDeep _
  | .list items, levels + 1 => by
      rw [Encoder.value, Value.scalarsUnder]
      exact (checks_items items levels).before fun _ => checks_ok _

theorem checks_items : (vs : List Value) → (levels : Nat) →
    Checks (e.items levels vs) (itemScalars e.cut vs)
  | [], levels => by
      rw [Encoder.items, itemScalars]
      exact checks_ok []
  | v :: vs, levels => by
      rw [Encoder.items, itemScalars]
      refine (checks_value v levels).bind fun _ => ?_
      exact (checks_items vs levels).before fun _ => checks_ok _

end

/-! ## Declarations and documents -/

theorem checks_field (f : Field) : Checks (e.field f) (optionScalars e.cut f.initializer) := by
  have hinitializer : Checks (Encoder.optional '=' (e.value e.options.maxDepth) f.initializer)
      (optionScalars e.cut f.initializer) := by
    cases f.initializer with
    | none => exact checks_ok _
    | some v => exact (checks_value v _).map
  refine (checks_keywords f.modifiers).after fun _ => ?_
  refine (checks_identifier (by decide) f.name).after fun _ => ?_
  refine (checks_optionType f.typeRef).after fun _ => ?_
  exact hinitializer.before fun _ => checks_ok _

theorem checks_statement (s : Statement) :
    Checks (e.statement s) (optionScalars e.cut s.value) := by
  have hvalue : Checks (e.statementValue s.value) (optionScalars e.cut s.value) := by
    cases s.value with
    | none => exact checks_ok _
    | some v => exact checks_value v _
  unfold Encoder.statement
  split
  · exact checks_error (by nofun) _
  · refine (checks_keywords s.keywords).after fun _ => ?_
    exact hvalue.before fun _ => checks_ok _

theorem checks_methodBody (b : MethodBody) :
    Checks (e.methodBody b) (b.scalarsUnder e.cut) := by
  cases b with
  | widget w => exact (checks_widget w _).map
  | statements block => exact (checks_mapM fun s _ => checks_statement s).map

theorem checks_method (m : Method) : Checks (e.method m) (m.body.scalarsUnder e.cut) := by
  refine (checks_keywords m.modifiers).after fun _ => ?_
  refine (checks_identifier (by decide) m.name).after fun _ => ?_
  refine (checks_mapM_nil fun p _ => checks_param p).after fun _ => ?_
  refine (checks_optionType m.returnType).after fun _ => ?_
  exact (checks_methodBody m.body).before fun _ => checks_ok _

theorem checks_classDecl (c : ClassDecl) : Checks (e.classDecl c) (c.scalarsUnder e.cut) := by
  refine (checks_identifier (by decide) c.name).after fun _ => ?_
  refine (checks_superType c.superType).after fun _ => ?_
  refine (checks_mapM fun f _ => checks_field f).bind fun _ => ?_
  exact (checks_mapM fun m _ => checks_method m).before fun _ => checks_ok _

theorem checks_item (n : Node) : Checks (e.item n) (n.scalarsUnder e.cut) := by
  cases n with
  | classDecl c => exact checks_classDecl c
  | method m => exact (checks_method m).map
  | widget w => exact checks_widget w _
  | literal l => exact (checks_literal l).map
  -- A unit inside a unit is rejected as such, whatever names are in it.
  | unit items => exact checks_error (by nofun) _

theorem nodeScalars_eq (cut : Widget → Option (List Scalar)) (ns : List Node) :
    nodeScalars cut ns = ns.flatMap (Node.scalarsUnder cut) := by
  induction ns with
  | nil => rfl
  | cons n ns ih => rw [nodeScalars, ih, List.flatMap_cons]

theorem checks_document (tree : Node) : Checks (e.document tree) (e.spelled tree) := by
  cases tree with
  | unit items =>
      cases items with
      | nil => exact checks_ok _
      | cons n ns =>
          rw [Encoder.spelled, Node.scalarsUnder, nodeScalars_eq]
          exact (checks_mapM fun n _ => checks_item n).map
  | classDecl c => exact checks_item (.classDecl c)
  | method m => exact checks_item (.method m)
  | widget w => exact checks_item (.widget w)
  | literal l => exact checks_item (.literal l)

theorem checks_encode (tree : Node) : Checks (e.encode tree) (e.spelled tree) :=
  (checks_document tree).map

end Written

end WidgetShorthand
