import WidgetShorthand.Proofs.SlotOrder
import WidgetShorthand.Proofs.TreeDifferences

/-!
# Tokens in full detail say which tree it is

The tokens of a tree carry no lengths, and what is missing (a type, an initializer, a value behind
keywords) leaves no trace. Still the tree can be read off them. Widgets and values need nothing to
follow them: without their scalars they are shapes, which are a prefix code, and the scalars stand
where the slots were. Everything else ends where a token stands that cannot go on with it.
`Readable` names these tokens, and says that parts which read the same up to such an end are the
same.

Units are the exception. Nothing closes them, so the items behind an inner unit could be items of
the outer one, and trees with units inside units do share their tokens.
-/

namespace WidgetShorthand

/-! ## Where parts end -/

/-- The tokens are at their end, or go on with a token that is not of the class. -/
def Stops (goesOn : Token → Bool) : List Token → Prop
  | [] => True
  | t :: _ => goesOn t = false

/-- The tokens go on with one of the class. -/
def Opens (opening : Token → Bool) : List Token → Prop
  | [] => False
  | t :: _ => opening t = true

/-- What is written is known from the tokens, if no token that could go on with it stands behind. -/
def Readable {α : Type} (tokens : α → List Token) (goesOn : Token → Bool) : Prop :=
  ∀ ⦃x y r r'⦄, tokens x ++ r = tokens y ++ r' → Stops goesOn r → Stops goesOn r' → x = y ∧ r = r'

variable {α : Type} {tokens : α → List Token} {goesOn opening : Token → Bool} {ts r r' : List Token}

theorem Stops.left {p q : Token → Bool} (h : Stops (fun t => p t || q t) r) : Stops p r := by
  cases r with
  | nil => trivial
  | cons t r => exact (Bool.or_eq_false_iff.mp h).1

theorem Stops.right {p q : Token → Bool} (h : Stops (fun t => p t || q t) r) : Stops q r := by
  cases r with
  | nil => trivial
  | cons t r => exact (Bool.or_eq_false_iff.mp h).2

theorem Opens.append (h : Opens opening ts) (r : List Token) : Opens opening (ts ++ r) := by
  cases ts with
  | nil => exact h.elim
  | cons t ts => exact h

theorem Opens.stops (h : Opens opening r) (hdisjoint : ∀ t, opening t = true → goesOn t = false) :
    Stops goesOn r := by
  cases r with
  | nil => exact h.elim
  | cons t r => exact hdisjoint t h

theorem Opens.not_stops (h : Opens opening r) (hr : Stops opening r) : False := by
  cases r with
  | nil => exact h
  | cons t r =>
      have hopening : opening t = true := h
      rw [show opening t = false from hr] at hopening
      cases hopening

namespace Readable

/-- Parts one after the other, if the beginning of a part does not go on with the part before it. -/
theorem flatMap (h : Readable tokens goesOn) (opening : Token → Bool)
    (hopens : ∀ x, Opens opening (tokens x))
    (hdisjoint : ∀ t, opening t = true → goesOn t = false) :
    Readable (List.flatMap tokens) (fun t => goesOn t || opening t) := by
  have hnext : ∀ xs {r}, Stops (fun t => goesOn t || opening t) r →
      Stops goesOn (List.flatMap tokens xs ++ r) := by
    intro xs r hr
    cases xs with
    | nil => exact hr.left
    | cons x xs =>
        rw [List.flatMap_cons, List.append_assoc]
        exact ((hopens x).append _).stops hdisjoint
  intro xs
  induction xs with
  | nil =>
      intro ys r r' heq hr _
      cases ys with
      | nil => exact ⟨rfl, heq⟩
      | cons y ys =>
          rw [List.flatMap_nil, List.nil_append, List.flatMap_cons, List.append_assoc] at heq
          exact (((hopens y).append _).not_stops (heq ▸ hr.right)).elim
  | cons x xs ih =>
      intro ys r r' heq hr hr'
      cases ys with
      | nil =>
          rw [List.flatMap_nil, List.nil_append, List.flatMap_cons, List.append_assoc] at heq
          exact (((hopens x).append _).not_stops (heq ▸ hr'.right)).elim
      | cons y ys =>
          rw [List.flatMap_cons, List.flatMap_cons, List.append_assoc, List.append_assoc] at heq
          obtain ⟨hhead, htail⟩ := h heq (hnext xs hr) (hnext ys hr')
          obtain ⟨hxs, hrest⟩ := ih htail hr hr'
          exact ⟨by rw [hhead, hxs], hrest⟩

/-- A part that may be missing is a list of at most one. -/
theorem option (h : Readable tokens goesOn) (opening : Token → Bool)
    (hopens : ∀ x, Opens opening (tokens x))
    (hdisjoint : ∀ t, opening t = true → goesOn t = false) :
    Readable (fun o : Option α => o.elim [] tokens) (fun t => goesOn t || opening t) := by
  have hlist : ∀ o : Option α, o.elim [] tokens = o.toList.flatMap tokens := by
    intro o
    cases o with
    | none => rfl
    | some x => exact (List.append_nil _).symm
  intro o o' r r' heq hr hr'
  simp only [hlist] at heq
  obtain ⟨heq, hrest⟩ := h.flatMap opening hopens hdisjoint heq hr hr'
  refine ⟨?_, hrest⟩
  cases o <;> cases o' <;> cases heq <;> rfl

end Readable

/-! ## Widgets and values -/

/-- A token with the scalar taken out of it. -/
def Token.anonymous : Token → Token
  | .literal _ | .ident _ | .expr _ => .slot
  | t => t

/-- The scalar that a token spells. -/
def Token.scalar? : Token → Option Scalar
  | .literal l => some (.literal l)
  | .ident name => some (.ident name)
  | .expr text => some (.expr text)
  | _ => none

/-- What scalars are filled into a shape, and what shape it is, can be read off the result. -/
theorem FillsIn.taken_apart {us : List Token} {ss : List Scalar} (h : FillsIn ts ss us)
    (hform : ∀ t ∈ ts, t.isForm = true) :
    us.map Token.anonymous = ts ∧ us.filterMap Token.scalar? = ss := by
  induction h with
  | nil => exact ⟨rfl, rfl⟩
  | slot s _ ih =>
      obtain ⟨hts, hss⟩ := ih (List.forall_mem_cons.mp hform).2
      have hslot : (s.token .full).anonymous = .slot := by cases s <;> rfl
      have hscalar : (s.token .full).scalar? = some s := by cases s <;> rfl
      rw [List.map_cons, List.filterMap_cons_some hscalar, hts, hss, hslot]
      exact ⟨rfl, rfl⟩
  | @other t _ _ _ _ _ ih =>
      rw [List.forall_mem_cons] at hform
      obtain ⟨hts, hss⟩ := ih hform.2
      have hkept : t.anonymous = t ∧ t.scalar? = none := by
        cases t <;> first | exact ⟨rfl, rfl⟩ | exact absurd hform.1 Bool.false_ne_true
      rw [List.map_cons, List.filterMap_cons_none hkept.2, hts, hss, hkept.1]
      exact ⟨rfl, rfl⟩

theorem map_some_filterMap {β : Type} {f : α → Option β} {xs : List α}
    (h : ∀ x ∈ xs, ∃ y, f x = some y) : (xs.filterMap f).map some = xs.map f := by
  induction xs with
  | nil => rfl
  | cons x xs ih =>
      rw [List.forall_mem_cons] at h
      obtain ⟨⟨y, hy⟩, hxs⟩ := h
      rw [List.filterMap_cons_some hy, List.map_cons, List.map_cons, ih hxs, hy]

/-- The same slots with the same scalars in them, one after the other. -/
theorem scalarAt?_of_slotScalars {v v' : Value} (hslots : v.slots = v'.slots)
    (hscalars : v.slotScalars = v'.slotScalars) (q : SlotPath) :
    v.scalarAt? q = v'.scalarAt? q := by
  by_cases hq : q ∈ v.slots
  · have hmap : v.slots.map v.scalarAt? = v.slots.map v'.scalarAt? := by
      rw [← map_some_filterMap fun p hp => Value.mem_slots.mp hp, ← map_some_filterMap fun p hp =>
        Value.mem_slots.mp (hslots ▸ hp)]
      conv_rhs => rw [hslots]
      exact congrArg _ hscalars
    exact List.map_inj_left.mp hmap q hq
  · have hnone : ∀ {u : Value}, q ∉ u.slots → u.scalarAt? q = none := fun hu =>
      Option.eq_none_iff_forall_ne_some.mpr fun s hs => hu (Value.mem_slots.mpr ⟨s, hs⟩)
    rw [hnone hq, hnone (hslots ▸ hq)]

/-- Values need nothing to follow them: shapes are a prefix code, and so is what is left when a
token for each scalar takes the place of its slot. -/
theorem value_readable (v v' : Value) (h : v.tokens .full ++ r = v'.tokens .full ++ r') :
    v = v' ∧ r = r' := by
  obtain ⟨hforms, hscalars⟩ := (fillsIn_value v).taken_apart (isForm_of_mem_value v)
  obtain ⟨hforms', hscalars'⟩ := (fillsIn_value v').taken_apart (isForm_of_mem_value v')
  have hanonymous := congrArg (List.map Token.anonymous) h
  rw [List.map_append, List.map_append, hforms, hforms'] at hanonymous
  obtain ⟨halike, hrest⟩ := value_alike v v' hanonymous
  have hlength : r.length = r'.length := by simpa using congrArg List.length hrest
  obtain ⟨hfull, hr⟩ := List.append_inj' h hlength
  rw [hfull] at hscalars
  exact ⟨halike.eq (scalarAt?_of_slotScalars halike.slots (hscalars.symm.trans hscalars')), hr⟩

theorem widget_readable (w w' : Widget) (h : w.tokens .full ++ r = w'.tokens .full ++ r') :
    w = w' ∧ r = r' := by
  obtain ⟨hw, hr⟩ := value_readable (.widget w) (.widget w') h
  exact ⟨Value.widget.inj hw, hr⟩

/-! ## Types -/

/-- What can follow the name of a type. -/
def Token.isOpenArgs : Token → Bool
  | .openArgs => true
  | _ => false

def Token.isWidgetType : Token → Bool
  | .widgetType _ => true
  | _ => false

theorem opens_typeRef (t : TypeRef) : Opens Token.isWidgetType t.tokens := by
  obtain ⟨name, args⟩ := t
  cases args with
  | nil => rfl
  | cons arg args => rfl

/-- Behind an argument there is another one or the end of the arguments. -/
theorem stops_typeRefs (ts : List TypeRef) (r : List Token) :
    Stops Token.isOpenArgs (typeRefTokens ts ++ .closeArgs :: r) := by
  cases ts with
  | nil => rfl
  | cons t ts =>
      rw [typeRefTokens, List.append_assoc]
      refine ((opens_typeRef t).append _).stops fun t ht => ?_
      cases t <;> first | rfl | cases ht

mutual

theorem typeRef_readable : (t t' : TypeRef) → {r r' : List Token} →
    t.tokens ++ r = t'.tokens ++ r' → Stops Token.isOpenArgs r → Stops Token.isOpenArgs r' →
      t = t' ∧ r = r'
  | ⟨name, []⟩, ⟨name', []⟩, r, r', h, _, _ => by
      obtain ⟨hname, hrest⟩ := List.cons.inj h
      cases hname
      exact ⟨rfl, hrest⟩
  | ⟨name, []⟩, ⟨name', arg' :: args'⟩, r, r', h, hr, _ => by
      obtain rfl : r = .openArgs :: _ := (List.cons.inj h).2
      cases hr
  | ⟨name, arg :: args⟩, ⟨name', []⟩, r, r', h, _, hr' => by
      obtain rfl : r' = .openArgs :: _ := (List.cons.inj h).2.symm
      cases hr'
  | ⟨name, arg :: args⟩, ⟨name', arg' :: args'⟩, r, r', h, _, _ => by
      simp only [TypeRef.tokens, List.cons_append, List.append_assoc, List.nil_append,
        List.cons.injEq, Token.widgetType.injEq, true_and] at h
      obtain ⟨rfl, h⟩ := h
      obtain ⟨hargs, h⟩ := typeRefs_readable (arg :: args) (arg' :: args') h
      rw [hargs]
      exact ⟨rfl, h⟩

theorem typeRefs_readable : (ts ts' : List TypeRef) → {r r' : List Token} →
    typeRefTokens ts ++ .closeArgs :: r = typeRefTokens ts' ++ .closeArgs :: r' → ts = ts' ∧ r = r'
  | [], [], r, r', h => ⟨rfl, (List.cons.inj h).2⟩
  | [], t' :: ts', r, r', h => by
      rw [typeRefTokens, typeRefTokens, List.nil_append, List.append_assoc] at h
      have hopens := (opens_typeRef t').append (typeRefTokens ts' ++ .closeArgs :: r')
      rw [← h] at hopens
      cases hopens
  | t :: ts, [], r, r', h => by
      rw [typeRefTokens, typeRefTokens, List.nil_append, List.append_assoc] at h
      have hopens := (opens_typeRef t).append (typeRefTokens ts ++ .closeArgs :: r)
      rw [h] at hopens
      cases hopens
  | t :: ts, t' :: ts', r, r', h => by
      rw [typeRefTokens, typeRefTokens, List.append_assoc, List.append_assoc] at h
      obtain ⟨ht, h⟩ := typeRef_readable t t' h (stops_typeRefs ts r) (stops_typeRefs ts' r')
      obtain ⟨hts, h⟩ := typeRefs_readable ts ts' h
      rw [ht, hts]
      exact ⟨rfl, h⟩

end

/-- What can follow a name with a type that may be missing. -/
def Token.continuesType (t : Token) : Bool :=
  t.isOpenArgs || t.isWidgetType

theorem readable_optionType : Readable optionTypeTokens Token.continuesType := by
  have htype : Readable TypeRef.tokens Token.isOpenArgs :=
    fun t t' _ _ h hr hr' => typeRef_readable t t' h hr hr'
  exact htype.option _ opens_typeRef fun t ht => by cases t <;> first | rfl | cases ht

/-! ## Fields, parameters and statements -/

def Token.isModifier : Token → Bool
  | .modifier _ => true
  | _ => false

def Token.isAssign : Token → Bool
  | .assign => true
  | _ => false

theorem readable_modifiers : Readable (List.map Token.modifier) Token.isModifier := by
  have hone : Readable (fun word => [Token.modifier word]) (fun _ => false) := by
    intro x y r r' h _ _
    cases h
    exact ⟨rfl, rfl⟩
  have hall := hone.flatMap Token.isModifier (fun _ => rfl) (fun _ _ => rfl)
  intro xs ys r r' h hr hr'
  rw [List.map_eq_flatMap, List.map_eq_flatMap] at h
  exact hall h hr hr'

/-- What can follow the name of a field. -/
def Token.continuesField (t : Token) : Bool :=
  t.continuesType || t.isAssign

/-- The tokens of an initializer that may be missing. -/
def initializerTokens (v : Option Value) : List Token :=
  v.elim [] fun v => .assign :: v.tokens .full

theorem readable_initializer : Readable initializerTokens Token.isAssign := by
  have hvalue : Readable (fun v : Value => .assign :: v.tokens .full) (fun _ => false) :=
    fun v v' _ _ h _ _ => value_readable v v' (List.cons.inj h).2
  exact hvalue.option Token.isAssign (fun _ => rfl) (fun _ _ => rfl)

theorem readable_field : Readable Field.tokens Token.continuesField := by
  -- An initializer does not go on with a type.
  have hinitializer : ∀ (v : Option Value) {r}, Stops Token.continuesField r →
      Stops Token.continuesType (initializerTokens v ++ r) := by
    intro v r hr
    cases v with
    | none => exact Stops.left hr
    | some v => rfl
  rintro ⟨m, n, t, v⟩ ⟨m', n', t', v'⟩ r r' h hr hr'
  simp only [Field.tokens, List.append_assoc, List.cons_append] at h
  obtain ⟨hm, h⟩ := readable_modifiers h rfl rfl
  obtain ⟨hn, h⟩ := List.cons.inj h
  obtain ⟨ht, h⟩ := readable_optionType h (hinitializer v hr) (hinitializer v' hr')
  obtain ⟨hv, h⟩ := readable_initializer h (Stops.right hr) (Stops.right hr')
  rw [hm, Token.field.inj hn, ht, hv]
  exact ⟨rfl, h⟩

theorem readable_param : Readable Param.tokens Token.continuesType := by
  rintro ⟨n, t⟩ ⟨n', t'⟩ r r' h hr hr'
  simp only [Param.tokens, List.cons_append] at h
  obtain ⟨hn, h⟩ := List.cons.inj h
  obtain ⟨ht, h⟩ := readable_optionType h hr hr'
  rw [Token.param.inj hn, ht]
  exact ⟨rfl, h⟩

/-- What a value begins with. -/
def Token.opensValue : Token → Bool
  | .literal _ | .ident _ | .expr _ | .widgetType _ | .openParams => true
  | _ => false

theorem opens_value (v : Value) : Opens Token.opensValue (v.tokens .full) := by
  cases v with
  | scalar s => cases s <;> rfl
  | widget w => cases w; rfl
  | list vs => rfl

/-- The tokens of a value that may be missing. -/
def optionValueTokens (v : Option Value) : List Token :=
  v.elim [] fun v => v.tokens .full

theorem readable_optionValue : Readable optionValueTokens Token.opensValue := by
  have hvalue : Readable (fun v : Value => v.tokens .full) (fun _ => false) :=
    fun v v' _ _ h _ _ => value_readable v v' h
  exact hvalue.option _ opens_value (fun _ _ => rfl)

/-- What can follow the beginning of a statement. -/
def Token.continuesStatement (t : Token) : Bool :=
  t.isModifier || t.opensValue

theorem readable_statement : Readable Statement.tokens Token.continuesStatement := by
  -- A value does not go on with a keyword.
  have hkeywords : ∀ (v : Option Value) {r}, Stops Token.continuesStatement r →
      Stops Token.isModifier (optionValueTokens v ++ r) := by
    intro v r hr
    cases v with
    | none => exact Stops.left hr
    | some v =>
        refine ((opens_value v).append r).stops fun t ht => ?_
        cases t <;> first | rfl | cases ht
  rintro ⟨ks, v⟩ ⟨ks', v'⟩ r r' h hr hr'
  simp only [Statement.tokens, List.cons_append, List.append_assoc] at h
  obtain ⟨hks, h⟩ := readable_modifiers (List.cons.inj h).2 (hkeywords v hr) (hkeywords v' hr')
  obtain ⟨hv, h⟩ := readable_optionValue h (Stops.right hr) (Stops.right hr')
  rw [hks, hv]
  exact ⟨rfl, h⟩

/-! ## Methods and classes -/

theorem methodBody_readable (b b' : MethodBody) (h : b.tokens ++ r = b'.tokens ++ r') :
    b = b' ∧ r = r' := by
  have hblock := readable_statement.flatMap (fun t => t == .part) (fun _ => rfl)
    fun t ht => by cases t <;> first | rfl | cases ht
  match b, b' with
  | .widget w, .widget w' =>
      obtain ⟨hw, h⟩ := widget_readable w w' (List.cons.inj h).2
      exact ⟨congrArg _ hw, h⟩
  | .statements block, .statements block' =>
      simp only [MethodBody.tokens, List.cons_append, List.append_assoc] at h
      obtain ⟨hblock, h⟩ := hblock (List.cons.inj h).2 rfl rfl
      exact ⟨congrArg _ hblock, (List.cons.inj h).2⟩
  | .widget _, .statements _ => cases h
  | .statements _, .widget _ => cases h

/-- What a method begins with. -/
def Token.opensMethod : Token → Bool
  | .modifier _ | .method _ => true
  | _ => false

theorem opens_method (m : Method) : Opens Token.opensMethod m.tokens := by
  obtain ⟨modifiers, _, _, _, _⟩ := m
  cases modifiers <;> rfl

theorem method_readable (m m' : Method) (h : m.tokens ++ r = m'.tokens ++ r') :
    m = m' ∧ r = r' := by
  have hparams := readable_param.flatMap (fun t => t matches .param _) (fun _ => rfl)
    fun t ht => by cases t <;> first | rfl | cases ht
  have hbody : ∀ (b : MethodBody) r, Stops Token.continuesType (b.tokens ++ r) := by
    intro b r
    cases b <;> rfl
  obtain ⟨m, n, ps, t, b⟩ := m
  obtain ⟨m', n', ps', t', b'⟩ := m'
  simp only [Method.tokens, List.append_assoc, List.cons_append] at h
  obtain ⟨hm, h⟩ := readable_modifiers h rfl rfl
  obtain ⟨hn, h⟩ := List.cons.inj h
  obtain ⟨hps, h⟩ := hparams (List.cons.inj h).2 rfl rfl
  obtain ⟨ht, h⟩ := readable_optionType (List.cons.inj h).2 (hbody b r) (hbody b' r')
  obtain ⟨hb, h⟩ := methodBody_readable b b' h
  rw [hm, Token.method.inj hn, hps, ht, hb]
  exact ⟨rfl, h⟩

theorem readable_superType :
    Readable (fun o : Option TypeRef => o.elim [] fun t => .openArgs :: (t.tokens ++ [.closeArgs]))
      Token.isOpenArgs := by
  have htype : Readable (fun t : TypeRef => .openArgs :: (t.tokens ++ [.closeArgs]))
      (fun _ => false) := by
    intro t t' r r' h _ _
    simp only [List.cons_append, List.append_assoc] at h
    obtain ⟨ht, h⟩ := typeRef_readable t t' (List.cons.inj h).2 rfl rfl
    exact ⟨ht, (List.cons.inj h).2⟩
  exact htype.option Token.isOpenArgs (fun _ => rfl) (fun _ _ => rfl)

/-- A class goes on as long as there are methods. -/
theorem readable_classDecl : Readable ClassDecl.tokens Token.opensMethod := by
  have hfields := readable_field.flatMap (fun t => t matches .modifier _ | .field _)
    (by rintro ⟨modifiers, _, _, _⟩; cases modifiers <;> rfl)
    fun t ht => by cases t <;> first | rfl | cases ht
  have hmethod : Readable Method.tokens (fun _ => false) := fun m m' _ _ h _ _ =>
    method_readable m m' h
  have hmethods := hmethod.flatMap _ opens_method fun _ _ => rfl
  rintro ⟨n, t, fs, ms⟩ ⟨n', t', fs', ms'⟩ r r' h hr hr'
  simp only [ClassDecl.tokens, List.append_assoc, List.cons_append] at h
  obtain ⟨hn, h⟩ := List.cons.inj h
  obtain ⟨ht, h⟩ := readable_superType h rfl rfl
  obtain ⟨hfs, h⟩ := hfields (List.cons.inj h).2 rfl rfl
  obtain ⟨hms, h⟩ := hmethods (List.cons.inj h).2 hr hr'
  rw [Token.classDecl.inj hn, ht, hfs, hms]
  exact ⟨rfl, h⟩

/-! ## Trees -/

def Node.isUnit : Node → Bool
  | .unit _ => true
  | _ => false

/-- No unit contains a unit. -/
def Node.IsFlat : Node → Prop
  | .unit items => ∀ item ∈ items, item.isUnit = false
  | _ => True

/-- The kind of the node that begins with a token. -/
def Token.nodeVariant? : Token → Option String
  | .classDecl _ => some "class"
  | .modifier _ | .method _ => some "method"
  | .widgetType _ => some "widget"
  | .literal _ => some "literal"
  | .unit => some "unit"
  | _ => none

theorem nodeVariant?_head (n : Node) (r : List Token) :
    (n.tokens ++ r).head?.bind Token.nodeVariant? = some (Diff.nodeVariant n) := by
  match n with
  | .classDecl _ => rfl
  | .method ⟨[], _, _, _, _⟩ => rfl
  | .method ⟨_ :: _, _, _, _, _⟩ => rfl
  | .widget ⟨_, _, _⟩ => rfl
  | .literal _ => rfl
  | .unit _ => rfl

/-- Nodes that are no units can stand next to each other, with a mark before each. -/
theorem item_readable {n n' : Node} (hn : n.isUnit = false) (hn' : n'.isUnit = false)
    (h : n.tokens ++ r = n'.tokens ++ r') (hr : Stops Token.opensMethod r)
    (hr' : Stops Token.opensMethod r') : n = n' ∧ r = r' := by
  have hvariant : Diff.nodeVariant n = Diff.nodeVariant n' := by
    rw [← Option.some.injEq, ← nodeVariant?_head n r, h, nodeVariant?_head]
  cases n with
  | classDecl c =>
      cases n' with
      | classDecl c' =>
          obtain ⟨hc, h⟩ := readable_classDecl h hr hr'
          exact ⟨congrArg _ hc, h⟩
      | _ => simp [Diff.nodeVariant] at hvariant
  | method m =>
      cases n' with
      | method m' =>
          obtain ⟨hm, h⟩ := method_readable m m' h
          exact ⟨congrArg _ hm, h⟩
      | _ => simp [Diff.nodeVariant] at hvariant
  | widget w =>
      cases n' with
      | widget w' =>
          obtain ⟨hw, h⟩ := widget_readable w w' h
          exact ⟨congrArg _ hw, h⟩
      | _ => simp [Diff.nodeVariant] at hvariant
  | literal l =>
      cases n' with
      | literal l' =>
          obtain ⟨hl, h⟩ := List.cons.inj h
          exact ⟨congrArg _ (Token.literal.inj hl), h⟩
      | _ => simp [Diff.nodeVariant] at hvariant
  | unit ns => cases hn

theorem stops_nodes (ns : List Node) : Stops Token.opensMethod (nodeTokens ns) := by
  cases ns with
  | nil => trivial
  | cons n ns => rfl

theorem items_eq_of_tokens {ns ns' : List Node} (hns : ∀ n ∈ ns, n.isUnit = false)
    (hns' : ∀ n ∈ ns', n.isUnit = false) (h : nodeTokens ns = nodeTokens ns') : ns = ns' := by
  induction ns generalizing ns' with
  | nil =>
      cases ns' with
      | nil => rfl
      | cons n' ns' => cases h
  | cons n ns ih =>
      cases ns' with
      | nil => cases h
      | cons n' ns' =>
          rw [List.forall_mem_cons] at hns hns'
          rw [nodeTokens, nodeTokens] at h
          obtain ⟨hn, h⟩ := item_readable hns.1 hns'.1 (List.cons.inj h).2 (stops_nodes ns)
            (stops_nodes ns')
          rw [hn, ih hns.2 hns'.2 h]

theorem eq_of_tokens {a b : Node} (ha : a.IsFlat) (hb : b.IsFlat) (h : a.tokens = b.tokens) :
    a = b := by
  have hend : Stops Token.opensMethod [] := trivial
  have hvariant : Diff.nodeVariant a = Diff.nodeVariant b := by
    rw [← Option.some.injEq, ← nodeVariant?_head a [], h, nodeVariant?_head]
  have hrest : a.tokens ++ [] = b.tokens ++ [] := by rw [h]
  cases a with
  | unit ns =>
      cases b with
      | unit ns' => rw [items_eq_of_tokens ha hb (List.cons.inj h).2]
      | _ => simp [Diff.nodeVariant] at hvariant
  | _ =>
      cases b with
      | unit ns' => simp [Diff.nodeVariant] at hvariant
      | _ => exact (item_readable rfl rfl hrest hend hend).1

/-! ## Texts of tokens -/

/-- The literal with a text: its kind, which the first letters tell, a colon and its spelling. -/
def Literal.ofText (text : List Char) : Literal :=
  let kind : LiteralKind :=
    match text with
    | 's' :: _ => .string
    | 'b' :: _ => .bool
    | 'n' :: 'u' :: 'm' :: _ => .number
    | _ => .null
  ⟨kind, String.ofList (text.drop (kind.name.toList.length + 1))⟩

/-- The token that has a text. Its first character tells which kind of token it is. -/
def Token.ofFullText (text : String) : Token :=
  let name := String.ofList (text.toList.drop 2)
  match text.toList.headD '?' with
  | 'T' => .widgetType name
  | 'K' => .key name
  | 'L' => .literal (.ofText (text.toList.drop 1))
  | 'I' => .ident name
  | 'E' => .expr name
  | 'C' => .classDecl name
  | 'F' => .field name
  | 'M' => .method name
  | 'P' => .param name
  | '%' => .modifier (String.ofList (text.toList.drop 1))
  | 'U' => .unit
  | '|' => .item
  | '<' => .openArgs
  | '>' => .closeArgs
  | ';' => .part
  | '=' => .assign
  | '(' => .openParams
  | ')' => .closeParams
  | '\x7b' => .openProperties
  | '\x7d' => .closeProperties
  | '[' => .openChildren
  | ']' => .closeChildren
  | _ => .slot

theorem Token.ofFullText_text (t : Token) : Token.ofFullText t.text = t := by
  cases t with
  | literal l =>
      obtain ⟨kind, raw⟩ := l
      cases kind <;> simp [ofFullText, text, Literal.ofText, LiteralKind.name]
  | _ => simp [ofFullText, text]

theorem Token.text_injective {t t' : Token} (h : t.text = t'.text) : t = t' := by
  rw [← ofFullText_text t, h, ofFullText_text]

/-- Flat trees with the same texts of tokens are equal. So their tokens are at edit distance zero
exactly if comparing the trees finds no difference, whether the texts or the tokens are counted. -/
theorem tokens_determine_tree {a b : Node} (ha : a.IsFlat) (hb : b.IsFlat) :
    (a.tokens.map Token.text = b.tokens.map Token.text → a = b) ∧
    (Sequence.editDistance (a.tokens.map Token.text) (b.tokens.map Token.text) = 0 ↔
      diff a b = []) ∧
    (Sequence.editDistance a.tokens b.tokens = 0 ↔ diff a b = []) := by
  have htexts : a.tokens.map Token.text = b.tokens.map Token.text ↔ a.tokens = b.tokens :=
    (List.map_injective_iff.mpr fun _ _ => Token.text_injective).eq_iff
  have htokens : a.tokens = b.tokens ↔ a = b := ⟨eq_of_tokens ha hb, congrArg Node.tokens⟩
  rw [Sequence.editDistance_eq_zero, Sequence.editDistance_eq_zero, htexts, htokens, diff_eq_nil]
  exact ⟨id, Iff.rfl, Iff.rfl⟩

/-- A keyword and a value, and two keywords of which one is spelled like the value. -/
theorem tokens_determine_statements :
    let unitOf (statement : Statement) : Node :=
      .unit [.method ⟨[], "f", [], none, .statements [statement]⟩, .widget ⟨"A", [], []⟩]
    let a := unitOf ⟨["return"], some (.scalar (.ident "x"))⟩
    let b := unitOf ⟨["return", "I:x"], none⟩
    a.IsFlat ∧ b.IsFlat ∧ a ≠ b ∧ a.tokens.map Token.text ≠ b.tokens.map Token.text ∧
      Sequence.editDistance (a.tokens.map Token.text) (b.tokens.map Token.text) ≠ 0 := by
  intro unitOf a b
  have ha : a.IsFlat := by simp [a, unitOf, Node.IsFlat, Node.isUnit]
  have hb : b.IsFlat := by simp [b, unitOf, Node.IsFlat, Node.isUnit]
  have hne : a ≠ b := by decide
  obtain ⟨hinjective, hdistance, _⟩ := tokens_determine_tree ha hb
  refine ⟨ha, hb, hne, mt hinjective hne, ?_⟩
  rw [Ne, hdistance, diff_eq_nil]
  exact hne

/-- An item behind an inner unit could belong to either unit. -/
example : (Node.unit [.unit [], .unit []]).tokens = (Node.unit [.unit [.unit []]]).tokens := rfl

end WidgetShorthand
