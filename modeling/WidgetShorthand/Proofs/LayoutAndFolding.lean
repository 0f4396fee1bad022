import WidgetShorthand.Proofs.RoundTrip

/-!
# Layout and folding change no outcome

A strategy decides on its own whether layout and foldable literals are written out, and whether
patterns are referred to. Two strategies that agree about patterns take a tree apart in the same
way: the texts of the parts differ, but the checks are the same ones in the same order, and so are
the references. `Corresponds` is that statement for a part and for lists of parts, and it follows
the writer function by function.

What is read back is the echo of the tree, into which the writer only comes through the patterns
that it matches. So both documents are read as the same tree, whatever the references lose.
-/

namespace WidgetShorthand

/-- Both computations fail with the same error, or their results correspond. -/
inductive Corresponds {ε α β : Type} (R : α → β → Prop) : Except ε α → Except ε β → Prop
  | error (err : ε) : Corresponds R (.error err) (.error err)
  | ok {a : α} {b : β} (h : R a b) : Corresponds R (.ok a) (.ok b)

section Rules

variable {ε α β γ δ κ : Type} {R : α → β → Prop} {S : γ → δ → Prop} {x : Except ε α}
  {y : Except ε β}

theorem Corresponds.refl {T : κ → κ → Prop} (hT : ∀ a, T a a) (x : Except ε κ) :
    Corresponds T x x := by
  cases x with
  | error err => exact .error err
  | ok a => exact .ok (hT a)

theorem Corresponds.map {f : α → γ} {g : β → δ} (h : Corresponds R x y)
    (hfg : ∀ a b, R a b → S (f a) (g b)) : Corresponds S (x.map f) (y.map g) := by
  cases h with
  | error err => exact .error err
  | ok h => exact .ok (hfg _ _ h)

theorem Corresponds.bind {f : α → Except ε γ} {g : β → Except ε δ} (h : Corresponds R x y)
    (hfg : ∀ a b, R a b → Corresponds S (f a) (g b)) : Corresponds S (x >>= f) (y >>= g) := by
  cases h with
  | error err => exact .error err
  | ok h => exact hfg _ _ h

theorem Corresponds.outcome (h : Corresponds R x y) :
    (∃ err, x = .error err ∧ y = .error err) ∨ ∃ a b, x = .ok a ∧ y = .ok b ∧ R a b := by
  cases h with
  | error err => exact .inl ⟨err, rfl, rfl⟩
  | ok h => exact .inr ⟨_, _, rfl, rfl, h⟩

/-- What comes first may be the same. -/
theorem corresponds_bind {x : Except ε κ} {f : κ → Except ε γ} {g : κ → Except ε δ}
    (hfg : ∀ a, Corresponds S (f a) (g a)) : Corresponds S (x >>= f) (x >>= g) := by
  cases x with
  | error err => exact .error err
  | ok a => exact hfg a

theorem corresponds_mapM {f : κ → Except ε α} {g : κ → Except ε β} (xs : List κ)
    (h : ∀ x, Corresponds R (f x) (g x)) :
    Corresponds (List.Forall₂ R) (xs.mapM f) (xs.mapM g) := by
  induction xs with
  | nil => exact .ok .nil
  | cons x xs ih =>
      rw [List.mapM_cons, List.mapM_cons]
      exact (h x).bind fun _ _ hx => ih.bind fun _ _ hxs => .ok (.cons hx hxs)

end Rules

/-! ## Fragments -/

/-- The fragments have equally many references. -/
def SameReferences (f g : Fragment) : Prop :=
  f.references = g.references

section

variable {f f' g g' : Fragment}

theorem sameReferences_refl (f : Fragment) : SameReferences f f := rfl

theorem sameReferences_ofText (text text' : List Char) :
    SameReferences (.ofText text) (.ofText text') := rfl

theorem SameReferences.append (h : SameReferences f g) (h' : SameReferences f' g') :
    SameReferences (f ++ f') (g ++ g') := by
  simp only [SameReferences, Fragment.references_append] at h h' ⊢
  rw [h, h']

theorem SameReferences.enclose (h : SameReferences f g) (before before' after after' : List Char) :
    SameReferences (.enclose before f after) (.enclose before' g after') :=
  (sameReferences_ofText before before').append (h.append (sameReferences_ofText after after'))

theorem sameReferences_join {fs gs : List Fragment} (h : List.Forall₂ SameReferences fs gs)
    (mark mark' : List Char) : SameReferences (.join mark fs) (.join mark' gs) := by
  induction h with
  | nil => rfl
  | cons hf hfs ih =>
      cases hfs with
      | nil => exact hf
      | cons hg hgs => exact hf.append ((sameReferences_ofText mark mark').append ih)

end

namespace Encoder

/-- The same writing with another strategy. -/
def withStrategy (e : Encoder) (s : Strategy) : Encoder :=
  { e with strategy := s }

section

variable {e : Encoder} {s : Strategy}

/-! ## Types -/

mutual

theorem typeRef_withStrategy : (t : TypeRef) → (levels : Nat) →
    (e.withStrategy s).typeRef levels t = e.typeRef levels t
  | ⟨name, []⟩, levels => by
      rw [typeRef, typeRef]
      rfl
  | ⟨name, arg :: args⟩, levels => by
      rw [typeRef, typeRef]
      cases levels with
      | zero => rfl
      | succ levels =>
          simp only [typeRefs_withStrategy (arg :: args) levels]
          rfl

theorem typeRefs_withStrategy : (ts : List TypeRef) → (levels : Nat) →
    (e.withStrategy s).typeRefs levels ts = e.typeRefs levels ts
  | [], levels => by rw [typeRefs, typeRefs]
  | t :: ts, levels => by
      rw [typeRefs, typeRefs, typeRef_withStrategy t levels, typeRefs_withStrategy ts levels]

end

theorem declaredType_withStrategy (t : Option TypeRef) :
    declaredType (e.withStrategy s) t = declaredType e t := by
  cases t with
  | none => rfl
  | some t => exact congrArg (Except.map _) (typeRef_withStrategy t _)

theorem param_withStrategy (p : Param) : (e.withStrategy s).param p = e.param p := by
  rw [param, param, declaredType_withStrategy]

theorem superType_withStrategy (t : Option TypeRef) :
    (e.withStrategy s).superType t = e.superType t := by
  cases t with
  | none => rfl
  | some t => exact congrArg (Except.map _) (typeRef_withStrategy t _)

/-! ## Scalars and references -/

/-- Whether a scalar is folded makes no difference to whether it can be written. -/
theorem corresponds_scalar (x : Scalar) :
    Corresponds (fun _ _ => True) (e.scalar x) ((e.withStrategy s).scalar x) := by
  cases x with
  | literal l => exact .refl (fun _ => trivial) _
  | ident name =>
      rw [scalar, scalar]
      split
      -- The name has been checked by now. Only its text depends on who folds.
      · split <;> split <;> exact .ok trivial
      · exact .error _
  | expr text =>
      rw [scalar, scalar]
      split <;> split <;> exact .ok trivial

theorem corresponds_argumentText (arg : Option Scalar) :
    Corresponds SameReferences (e.argumentText arg) ((e.withStrategy s).argumentText arg) := by
  cases arg with
  | none => exact .ok rfl
  | some x => exact (corresponds_scalar x).map fun _ _ _ => rfl

theorem corresponds_reference (entry : Entry) (w : Widget) :
    Corresponds SameReferences (e.reference entry w) ((e.withStrategy s).reference entry w) := by
  refine (corresponds_mapM _ corresponds_argumentText).map fun fs gs h => ?_
  exact congrArg (· + 1) ((sameReferences_join h _ _).enclose _ _ _ _)

theorem matchPattern?_withStrategy (hs : e.strategy.usesPatterns = s.usesPatterns) (w : Widget) :
    e.matchPattern? w = (e.withStrategy s).matchPattern? w := by
  rw [matchPattern?, matchPattern?, hs]
  rfl

/-! ## Widgets and values -/

mutual

theorem corresponds_widget (hs : e.strategy.usesPatterns = s.usesPatterns) :
    (w : Widget) → (levels : Nat) →
    Corresponds SameReferences (e.widget levels w) ((e.withStrategy s).widget levels w)
  | ⟨t, ps, cs⟩, 0 => by
      rw [widget, widget]
      exact .error _
  | ⟨t, ps, cs⟩, levels + 1 => by
      rw [widget, widget, ← matchPattern?_withStrategy hs]
      cases e.matchPattern? ⟨t, ps, cs⟩ with
      | some entry => exact corresponds_reference entry _
      | none =>
          refine corresponds_bind fun code => ?_
          refine (corresponds_properties hs ps levels).bind fun fs gs hps => ?_
          refine (corresponds_children hs cs levels).bind fun fs' gs' hcs => ?_
          have hbody := (sameReferences_join hps [','] [',']).enclose
            (code ++ ['\x7b']) (code ++ ['\x7b']) ['\x7d'] ['\x7d']
          split
          · exact .ok hbody
          · exact .ok (hbody.append ((sameReferences_join hcs _ _).enclose _ _ _ _))

theorem corresponds_properties (hs : e.strategy.usesPatterns = s.usesPatterns) :
    (ps : List Property) → (levels : Nat) → Corresponds (List.Forall₂ SameReferences)
      (e.properties levels ps) ((e.withStrategy s).properties levels ps)
  | [], levels => by
      rw [properties, properties]
      exact .ok .nil
  | ⟨key, v⟩ :: ps, levels => by
      rw [properties, properties]
      refine corresponds_bind fun code => (corresponds_value hs v levels).bind fun f g hv => ?_
      refine (corresponds_properties hs ps levels).bind fun fs gs hps => .ok (.cons ?_ hps)
      exact (sameReferences_ofText _ _).append hv

theorem corresponds_children (hs : e.strategy.usesPatterns = s.usesPatterns) :
    (cs : List Widget) → (levels : Nat) → Corresponds (List.Forall₂ SameReferences)
      (e.children levels cs) ((e.withStrategy s).children levels cs)
  | [], levels => by
      rw [children, children]
      exact .ok .nil
  | c :: cs, levels => by
      rw [children, children]
      refine (corresponds_widget hs c levels).bind fun f g hc => ?_
      exact (corresponds_children hs cs levels).bind fun fs gs hcs => .ok (.cons hc hcs)

theorem corresponds_value (hs : e.strategy.usesPatterns = s.usesPatterns) :
    (v : Value) → (levels : Nat) →
    Corresponds SameReferences (e.value levels v) ((e.withStrategy s).value levels v)
  | .scalar x, levels => by
      rw [value, value]
      exact (corresponds_scalar x).map fun _ _ _ => rfl
  | .widget w, levels => by
      rw [value, value]
      exact corresponds_widget hs w levels
  | .list vs, 0 => by
      rw [value, value]
      exact .error _
  | .list vs, levels + 1 => by
      rw [value, value]
      refine (corresponds_items hs vs levels).bind fun fs gs h => .ok ?_
      exact (sameReferences_join h _ _).enclose _ _ _ _

theorem corresponds_items (hs : e.strategy.usesPatterns = s.usesPatterns) :
    (vs : List Value) → (levels : Nat) → Corresponds (List.Forall₂ SameReferences)
      (e.items levels vs) ((e.withStrategy s).items levels vs)
  | [], levels => by
      rw [items, items]
      exact .ok .nil
  | v :: vs, levels => by
      rw [items, items]
      refine (corresponds_value hs v levels).bind fun f g hv => ?_
      exact (corresponds_items hs vs levels).bind fun fs gs hvs => .ok (.cons hv hvs)

end

/-! ## Declarations -/

theorem corresponds_optional {α : Type} (mark : Char)
    {write write' : α → Except EncodeError Fragment}
    (h : ∀ x, Corresponds SameReferences (write x) (write' x)) (x : Option α) :
    Corresponds SameReferences (optional mark write x) (optional mark write' x) := by
  cases x with
  | none => exact .ok rfl
  | some x => exact (h x).map fun _ _ hf => (sameReferences_ofText _ _).append hf

theorem corresponds_field (hs : e.strategy.usesPatterns = s.usesPatterns) (f : Field) :
    Corresponds SameReferences (e.field f) ((e.withStrategy s).field f) := by
  rw [field, field, declaredType_withStrategy]
  refine corresponds_bind fun modifiers => corresponds_bind fun name => ?_
  refine corresponds_bind fun typeRef => ?_
  refine (corresponds_optional '=' (fun v => corresponds_value hs v _) _).bind fun _ _ hv => .ok ?_
  exact (sameReferences_refl _).append ((sameReferences_refl _).append
    ((sameReferences_refl _).append hv))

theorem corresponds_statement (hs : e.strategy.usesPatterns = s.usesPatterns) (x : Statement) :
    Corresponds SameReferences (e.statement x) ((e.withStrategy s).statement x) := by
  rw [statement, statement]
  split
  · exact .error _
  · refine corresponds_bind fun keywords => ?_
    cases x.value with
    | none => exact .ok (sameReferences_refl _)
    | some v =>
        exact (corresponds_value hs v _).bind fun _ _ hv => .ok ((sameReferences_refl _).append hv)

theorem corresponds_methodBody (hs : e.strategy.usesPatterns = s.usesPatterns) (b : MethodBody) :
    Corresponds SameReferences (e.methodBody b) ((e.withStrategy s).methodBody b) := by
  cases b with
  | widget w =>
      exact (corresponds_widget hs w _).map fun _ _ hw => (sameReferences_refl _).append hw
  | statements block =>
      exact (corresponds_mapM block (corresponds_statement hs)).map fun _ _ h =>
        (sameReferences_join h _ _).enclose _ _ _ _

theorem corresponds_method (hs : e.strategy.usesPatterns = s.usesPatterns) (m : Method) :
    Corresponds SameReferences (e.method m) ((e.withStrategy s).method m) := by
  have hparams : (e.withStrategy s).param = e.param := funext param_withStrategy
  rw [method, method, declaredType_withStrategy, hparams]
  refine corresponds_bind fun modifiers => corresponds_bind fun name => ?_
  refine corresponds_bind fun params => corresponds_bind fun returnType => ?_
  refine (corresponds_methodBody hs m.body).bind fun _ _ hb => .ok ?_
  exact (sameReferences_refl _).append ((sameReferences_refl _).append
    ((sameReferences_refl _).append hb))

theorem corresponds_classDecl (hs : e.strategy.usesPatterns = s.usesPatterns) (c : ClassDecl) :
    Corresponds SameReferences (e.classDecl c) ((e.withStrategy s).classDecl c) := by
  rw [classDecl, classDecl, superType_withStrategy]
  refine corresponds_bind fun name => corresponds_bind fun superType => ?_
  refine (corresponds_mapM c.fields (corresponds_field hs)).bind fun _ _ hfields => ?_
  refine (corresponds_mapM c.methods (corresponds_method hs)).bind fun _ _ hmethods => .ok ?_
  have hsemicolon := sameReferences_ofText (';' :: e.layout) (';' :: (e.withStrategy s).layout)
  have hfieldTexts :=
    sameReferences_join hfields (',' :: e.layout) (',' :: (e.withStrategy s).layout)
  exact (sameReferences_refl _).append ((sameReferences_refl _).append (hsemicolon.append
    (hfieldTexts.append (hsemicolon.append (sameReferences_join hmethods _ _)))))

/-! ## Documents -/

theorem corresponds_item (hs : e.strategy.usesPatterns = s.usesPatterns) (n : Node) :
    Corresponds SameReferences (e.item n) ((e.withStrategy s).item n) := by
  cases n with
  | classDecl c => exact corresponds_classDecl hs c
  | method m => exact (corresponds_method hs m).map fun _ _ hm => (sameReferences_refl _).append hm
  | widget w => exact corresponds_widget hs w _
  | literal l => exact .refl sameReferences_refl _
  | unit items => exact .error _

theorem corresponds_document (hs : e.strategy.usesPatterns = s.usesPatterns) (tree : Node) :
    Corresponds SameReferences (e.document tree) ((e.withStrategy s).document tree) := by
  cases tree with
  | unit items =>
      cases items with
      | nil => exact .ok rfl
      | cons n ns =>
          exact (corresponds_mapM (n :: ns) (corresponds_item hs)).map fun _ _ h =>
            (sameReferences_refl _).append (sameReferences_join h _ _)
  | classDecl c => exact corresponds_item hs (.classDecl c)
  | method m => exact corresponds_item hs (.method m)
  | widget w => exact corresponds_item hs (.widget w)
  | literal l => exact corresponds_item hs (.literal l)

theorem corresponds_encode (hs : e.strategy.usesPatterns = s.usesPatterns) (tree : Node) :
    Corresponds (fun a b : Encoded => a.references = b.references) (e.encode tree)
      ((e.withStrategy s).encode tree) :=
  (corresponds_document hs tree).map fun _ _ h => h

end

end Encoder

/-- Two strategies that agree about patterns fail with the same error, or they write documents with
the same number of references that are read as the same tree. -/
theorem encode_same_outcome {symbols : List Symbol} {tables : Symbols} {registry : Registry}
    {s t : Strategy} (ht : Symbols.ofList symbols = .ok tables) (hr : registry.Reachable)
    (hs : s.usesPatterns = t.usesPatterns) (options : EncodeOptions) (tree : Node) :
    (∃ error, (⟨tables, registry, s, options⟩ : Encoder).encode tree = .error error ∧
      (⟨tables, registry, t, options⟩ : Encoder).encode tree = .error error) ∨
    ∃ a b back, (⟨tables, registry, s, options⟩ : Encoder).encode tree = .ok a ∧
      (⟨tables, registry, t, options⟩ : Encoder).encode tree = .ok b ∧
      a.references = b.references ∧
      (⟨tables, registry, options.maxDepth⟩ : Decoder).decode a.document = .ok back ∧
      (⟨tables, registry, options.maxDepth⟩ : Decoder).decode b.document = .ok back := by
  let e : Encoder := ⟨tables, registry, s, options⟩
  have hread (u : Strategy) {x : Encoded} (hx : (e.withStrategy u).encode tree = .ok x) :
      (⟨tables, registry, options.maxDepth⟩ : Decoder).decode x.document =
        .ok ((e.withStrategy u).echo Entry.filled tree) := by
    have hu := understands_own (e := e.withStrategy u) (Symbols.sound_of_ofList ht) hr.sound
    exact decode_encode hu hx
  have hecho : e.echo Entry.filled tree = (e.withStrategy t).echo Entry.filled tree :=
    Encoder.echo_congr (Encoder.matchPattern?_withStrategy hs) tree
  rcases (Encoder.corresponds_encode (e := e) hs tree).outcome with
    hfail | ⟨a, b, ha, hb, hreferences⟩
  · exact .inl hfail
  · exact .inr ⟨a, b, _, ha, hb, hreferences, (hread s ha).trans (congrArg _ hecho), hread t hb⟩

/-- A folded argument of a reference that loses an item. -/
theorem encode_same_outcome_row :
    ∃ tables registry options tree a b back,
      Symbols.ofList [⟨.literal, "kGap", "g"⟩] = .ok tables ∧ registry.Reachable ∧
      (⟨tables, registry, .patternReference, options⟩ : Encoder).encode tree = .ok a ∧
      (⟨tables, registry, .hybrid, options⟩ : Encoder).encode tree = .ok b ∧
      a.document = "@w1(kGap,c)" ∧ b.document = "@w1(#g,c)" ∧ a.references = b.references ∧
      (⟨tables, registry, options.maxDepth⟩ : Decoder).decode a.document = .ok back ∧
      (⟨tables, registry, options.maxDepth⟩ : Decoder).decode b.document = .ok back ∧
      back ≠ tree := by
  let row (gap : String) (items : List Value) : Widget :=
    ⟨"Row", [⟨"gap", .scalar (.ident gap)⟩, ⟨"items", .list items⟩], []⟩
  let a : Value := .scalar (.ident "a")
  let registry : Registry := Registry.empty.perform (.register (row "gap" [a, a]))
  let tree : Node := .widget (row "kGap" [.scalar (.ident "c")])
  let options : EncodeOptions := { EncodeOptions.default with similarityThreshold := 0.5 }
  let tables : Symbols := ⟨.empty .type, .empty .property, .empty .keyword,
    ⟨.literal, [("kGap", "g")]⟩⟩
  have ht : Symbols.ofList [⟨.literal, "kGap", "g"⟩] = .ok tables :=
    ok_of_toOption (by decide +kernel)
  have hr : registry.Reachable := .next _ .empty
  have ha : ((⟨tables, registry, .patternReference, options⟩ : Encoder).encode tree).map
      (·.document) = .ok "@w1(kGap,c)" := ok_of_toOption (by decide +kernel)
  have hb : ((⟨tables, registry, .hybrid, options⟩ : Encoder).encode tree).map
      (·.document) = .ok "@w1(#g,c)" := ok_of_toOption (by decide +kernel)
  have hlost : ((⟨tables, registry, options.maxDepth⟩ : Decoder).decode "@w1(#g,c)").toOption ≠
      some tree := by decide +kernel
  clear_value registry tree tables
  obtain ⟨a, ha, hadoc⟩ := map_eq_ok.mp ha
  obtain ⟨b, hb, hbdoc⟩ := map_eq_ok.mp hb
  rcases encode_same_outcome ht hr (s := .patternReference) (t := .hybrid) rfl options tree with
    ⟨error, herror, _⟩ | ⟨a', b', back, ha', hb', hreferences, hreada, hreadb⟩
  · rw [ha] at herror
    cases herror
  · cases ha.symm.trans ha'
    cases hb.symm.trans hb'
    refine ⟨tables, registry, options, tree, a, b, back, ht, hr, ha, hb, hadoc, hbdoc, hreferences,
      hreada, hreadb, ?_⟩
    rintro rfl
    rw [hbdoc] at hreadb
    exact hlost (congrArg Except.toOption hreadb)

end WidgetShorthand
