import WidgetShorthand.Document.Decode
import WidgetShorthand.Proofs.RegistryRuns
import WidgetShorthand.Proofs.WidgetReading

/-!
# A document keeps its meaning

A registry is asked for one thing only while a document is read: the pattern with an id. A later
registry gives the same answer, unless there was none before; and a reader that gets none is lost at
once. So both readers go the same way, step by step, up to the first reference that the earlier one
does not know, and whatever text they are given: a text that is no document is refused by both at
the same place and for the same reason.

Tokens, types and keywords are read without the registry. These readers are equal, not only alike.
-/

namespace WidgetShorthand

open Reader

namespace Reader

variable {α β : Type} {r r' : Reader α} {f f' : α → Reader β}

/-- The readers do the same, unless the first one meets a reference that it does not know. -/
def Agrees (r r' : Reader α) : Prop :=
  ∀ s, r' s = r s ∨ ∃ error, r s = .error error ∧ error.fault.kind = .unknownReferenceId

theorem Agrees.refl (r : Reader α) : Agrees r r :=
  fun _ => .inl rfl

theorem Agrees.bind (h : Agrees r r') (hf : ∀ x, Agrees (f x) (f' x)) :
    Agrees (r >>= f) (r' >>= f') := by
  intro s
  show Except.bind (r' s) (fun q => f' q.1 q.2) = Except.bind (r s) (fun q => f q.1 q.2) ∨
    ∃ error, Except.bind (r s) (fun q => f q.1 q.2) = .error error ∧ _
  rcases h s with heq | ⟨error, herror, hkind⟩
  · rw [heq]
    cases r s with
    | error error => exact .inl rfl
    | ok q => exact hf q.1 q.2
  · rw [herror]
    exact .inr ⟨error, rfl, hkind⟩

/-- What comes first may be the same. -/
theorem agrees_bind (hf : ∀ x, Agrees (f x) (f' x)) : Agrees (r >>= f) (r >>= f') :=
  (Agrees.refl r).bind hf

/-- What comes last may be the same. -/
theorem Agrees.then (h : Agrees r r') (f : α → Reader β) : Agrees (r >>= f) (r' >>= f) :=
  h.bind fun x => .refl (f x)

theorem Agrees.ite {c : Prop} [Decidable c] {a a' b b' : Reader α} (ha : Agrees a a')
    (hb : Agrees b b') : Agrees (if c then a else b) (if c then a' else b') := by
  split
  · exact ha
  · exact hb

/-! ## Lists -/

theorem agrees_separatedLoop (separator : Char) (h : Agrees r r') (fuel : Nat) :
    Agrees (separatedLoop separator r fuel) (separatedLoop separator r' fuel) := by
  induction fuel with
  | zero => exact h.then _
  | succ fuel ih => exact h.bind fun _ => agrees_bind fun _ => (ih.then _).ite (.refl _)

theorem agrees_separated (separator : Char) (h : Agrees r r') :
    Agrees (separated separator r) (separated separator r') :=
  agrees_bind fun _ => agrees_separatedLoop separator h _

theorem agrees_separatedUnless (stop : Option Char → Bool) (separator : Char) (h : Agrees r r') :
    Agrees (separatedUnless stop separator r) (separatedUnless stop separator r') :=
  agrees_bind fun _ => (Agrees.refl _).ite (agrees_separated separator h)

end Reader

namespace Decoding

/-- The same reading with another registry. -/
def withRegistry (d : Decoding) (r : Registry) : Decoding :=
  { d with registry := r }

section

variable {d : Decoding} {later : Registry} {value value' : Reader Value}
  {widget widget' body body' : Reader Widget} {list list' : Reader (List Value)}

/-! ## References -/

theorem agrees_argument (hv : Agrees value value') :
    Agrees (d.argument value) ((d.withRegistry later).argument value') := by
  refine agrees_bind fun c => ?_
  split
  · exact .refl _
  · exact .refl _
  · exact agrees_bind fun _ => hv.then _

theorem agrees_arguments {arg arg' : Reader (Option Scalar)} (h : Agrees arg arg')
    (tooMany : Reader (List (Option Scalar))) (slots : Nat) :
    Agrees (arguments arg tooMany slots) (arguments arg' tooMany slots) := by
  induction slots with
  | zero => exact h.then _
  | succ slots ih => exact h.bind fun _ => agrees_bind fun _ => (ih.then _).ite (.refl _)

theorem agrees_callArguments (hv : Agrees value value') (entry : Entry) :
    Agrees (d.callArguments value entry) ((d.withRegistry later).callArguments value' entry) :=
  agrees_bind fun _ => (Agrees.refl _).ite (agrees_arguments (agrees_argument hv) _ _)

/-- The one place where the registry counts. -/
theorem agrees_referenceFrom (hg : d.registry.Grows later) (hv : Agrees value value')
    (start : List Char) :
    Agrees (d.referenceFrom value start) ((d.withRegistry later).referenceFrom value' start) := by
  refine agrees_bind fun s => agrees_bind fun _ => (Agrees.refl _).ite ?_
  cases hget : d.registry.get? (String.ofList (s.rest.takeWhile Text.isReferenceChar)) with
  | none => exact fun s => .inr ⟨_, rfl, rfl⟩
  | some entry =>
      have hlater : (d.withRegistry later).registry.get?
          (String.ofList (s.rest.takeWhile Text.isReferenceChar)) = some entry := hg.get? hget
      rw [hlater]
      exact agrees_bind fun _ => (agrees_callArguments hv entry).then _

theorem agrees_reference (hg : d.registry.Grows later) (hv : Agrees value value') :
    Agrees (d.reference value) ((d.withRegistry later).reference value') :=
  agrees_bind fun s => agrees_bind fun _ => agrees_referenceFrom hg hv s.rest

/-! ## Widgets and values -/

theorem agrees_property (hv : Agrees value value') :
    Agrees (d.property value) ((d.withRegistry later).property value') :=
  agrees_bind fun _ => agrees_bind fun _ => agrees_bind fun _ => agrees_bind fun _ => hv.then _

theorem agrees_properties (hv : Agrees value value') :
    Agrees (d.properties value) ((d.withRegistry later).properties value') :=
  agrees_bind fun _ => agrees_bind fun _ =>
    (agrees_separatedUnless _ ',' (agrees_property hv)).then _

theorem agrees_children (hw : Agrees widget widget') :
    Agrees (d.children widget) ((d.withRegistry later).children widget') :=
  agrees_bind fun _ => agrees_bind fun _ => (agrees_separatedUnless _ ',' (hw.then _)).then _

theorem agrees_fullWidget (hv : Agrees value value') (hw : Agrees widget widget') :
    Agrees (d.fullWidget value widget) ((d.withRegistry later).fullWidget value' widget') := by
  refine agrees_bind fun t => agrees_bind fun c => ?_
  have hbehind (ps : List Property) : Agrees
      (do
        let ws ← if (← next) = some '[' then d.children widget else pure []
        return (⟨t, ps, ws⟩ : Widget))
      (do
        let ws ← if (← next) = some '[' then (d.withRegistry later).children widget' else pure []
        return ⟨t, ps, ws⟩) :=
    agrees_bind fun _ => ((agrees_children hw).then _).ite (.refl _)
  exact ((agrees_properties hv).bind hbehind).ite (agrees_bind hbehind)

theorem agrees_widgetBody (hg : d.registry.Grows later) (hv : Agrees value value')
    (hw : Agrees widget widget') :
    Agrees (d.widgetBody value widget) ((d.withRegistry later).widgetBody value' widget') :=
  agrees_bind fun _ => (agrees_reference hg hv).ite (agrees_fullWidget hv hw)

theorem agrees_widgetWith (hb : Agrees body body') :
    Agrees (d.widgetWith body) ((d.withRegistry later).widgetWith body') := by
  refine agrees_bind fun _ => agrees_bind fun c => ?_
  split
  · exact hb.ite (.refl _)
  · exact .refl _

theorem agrees_list (hv : Agrees value value') :
    Agrees (d.list value) ((d.withRegistry later).list value') :=
  agrees_bind fun _ => (agrees_separatedUnless _ ',' hv).then _

theorem agrees_nameOrWidget (hw : Agrees widget widget') :
    Agrees (d.nameOrWidget widget) ((d.withRegistry later).nameOrWidget widget') := by
  refine agrees_bind fun s => agrees_bind fun name => agrees_bind fun c => ?_
  split
  · exact agrees_bind fun _ => hw.then _
  · exact agrees_bind fun _ => hw.then _
  · exact .refl _

theorem agrees_valueWith (hl : Agrees list list') (hw : Agrees widget widget') :
    Agrees (d.valueWith list widget) ((d.withRegistry later).valueWith list' widget') := by
  refine agrees_bind fun c => ?_
  split
  · exact .refl _
  · exact .refl _
  · exact .refl _
  · exact .refl _
  · exact hl.then _
  · exact hw.then _
  · exact hw.then _
  · exact (Agrees.refl _).ite ((agrees_nameOrWidget hw).ite (.refl _))
  · exact .refl _

/-- Reader and later reader go down the levels together. -/
theorem agrees_value_widget (hg : d.registry.Grows later) (levels : Nat) :
    Agrees (d.value levels) ((d.withRegistry later).value levels) ∧
      Agrees (d.widget levels) ((d.withRegistry later).widget levels) := by
  induction levels with
  | zero =>
      have hwidget : Agrees (d.widget 0) ((d.withRegistry later).widget 0) :=
        agrees_widgetWith (.refl _)
      exact ⟨agrees_valueWith (.refl _) hwidget, hwidget⟩
  | succ levels ih =>
      obtain ⟨hvalue, hwidget⟩ := ih
      rw [value_succ, value_succ, widget_succ, widget_succ]
      have hbody : Agrees (d.widgetWith (d.widgetBody (d.value levels) (d.widget levels)))
          ((d.withRegistry later).widgetWith ((d.withRegistry later).widgetBody
            ((d.withRegistry later).value levels) ((d.withRegistry later).widget levels))) :=
        agrees_widgetWith (agrees_widgetBody hg hvalue hwidget)
      exact ⟨agrees_valueWith (agrees_list hvalue) hbody, hbody⟩

theorem agrees_value (hg : d.registry.Grows later) (levels : Nat) :
    Agrees (d.value levels) ((d.withRegistry later).value levels) :=
  (agrees_value_widget hg levels).1

theorem agrees_widget (hg : d.registry.Grows later) (levels : Nat) :
    Agrees (d.widget levels) ((d.withRegistry later).widget levels) :=
  (agrees_value_widget hg levels).2

/-! ## Declarations -/

theorem typeRef_withRegistry (d : Decoding) (r : Registry) (levels : Nat) :
    (d.withRegistry r).typeRef levels = d.typeRef levels := by
  induction levels with
  | zero => rfl
  | succ levels ih =>
      funext s
      rw [typeRef, typeRef, ih]
      rfl

theorem modifiersLoop_withRegistry (d : Decoding) (r : Registry) (fuel : Nat) :
    (d.withRegistry r).modifiersLoop fuel = d.modifiersLoop fuel := by
  induction fuel with
  | zero => rfl
  | succ fuel ih =>
      rw [modifiersLoop, modifiersLoop, ih]
      rfl

theorem modifiers_withRegistry (d : Decoding) (r : Registry) :
    (d.withRegistry r).modifiers = d.modifiers := by
  rw [modifiers, modifiers]
  simp only [modifiersLoop_withRegistry]

theorem declaredType_withRegistry (d : Decoding) (r : Registry) :
    declaredType (d.withRegistry r) = d.declaredType := by
  rw [declaredType, declaredType, typeRef_withRegistry]
  rfl

theorem param_withRegistry (d : Decoding) (r : Registry) : (d.withRegistry r).param = d.param := by
  rw [param, param, declaredType_withRegistry]
  rfl

theorem params_withRegistry (d : Decoding) (r : Registry) :
    (d.withRegistry r).params = d.params := by
  rw [params, params, param_withRegistry]
  rfl

theorem superType_withRegistry (d : Decoding) (r : Registry) :
    (d.withRegistry r).superType = d.superType := by
  rw [superType, superType, typeRef_withRegistry]
  rfl

theorem agrees_initializer (hg : d.registry.Grows later) :
    Agrees d.initializer (d.withRegistry later).initializer :=
  agrees_bind fun _ => ((agrees_value hg d.maxDepth).then _).ite (.refl _)

theorem agrees_field (hg : d.registry.Grows later) :
    Agrees d.field (d.withRegistry later).field := by
  rw [field, field, modifiers_withRegistry, declaredType_withRegistry]
  exact agrees_bind fun _ => agrees_bind fun _ => agrees_bind fun _ =>
    (agrees_initializer hg).then _

theorem agrees_statementValue (hg : d.registry.Grows later) :
    Agrees d.statementValue (d.withRegistry later).statementValue := by
  refine agrees_bind fun c => ?_
  split
  · exact .refl _
  · exact .refl _
  · exact (agrees_value hg d.maxDepth).then _

theorem agrees_statement (hg : d.registry.Grows later) :
    Agrees d.statement (d.withRegistry later).statement := by
  rw [statement, statement, modifiers_withRegistry]
  exact agrees_bind fun _ => (agrees_statementValue hg).then _

theorem agrees_methodBody (hg : d.registry.Grows later) :
    Agrees d.methodBody (d.withRegistry later).methodBody := by
  have hstatements : Agrees d.statements (d.withRegistry later).statements :=
    agrees_bind fun _ => (agrees_separatedUnless _ ';' (agrees_statement hg)).then _
  refine agrees_bind fun c => ?_
  split
  · exact agrees_bind fun _ => (agrees_widget hg d.maxDepth).then _
  · exact hstatements.then _
  · exact .refl _

theorem agrees_method (hg : d.registry.Grows later) :
    Agrees d.method (d.withRegistry later).method := by
  rw [method, method, modifiers_withRegistry, params_withRegistry, declaredType_withRegistry]
  exact agrees_bind fun _ => agrees_bind fun _ => agrees_bind fun _ => agrees_bind fun _ =>
    (agrees_methodBody hg).then _

theorem agrees_classDecl (hg : d.registry.Grows later) :
    Agrees d.classDecl (d.withRegistry later).classDecl := by
  rw [classDecl, classDecl, superType_withRegistry]
  refine agrees_bind fun _ => agrees_bind fun _ => agrees_bind fun _ => ?_
  refine (agrees_separatedUnless _ ',' (agrees_field hg)).bind fun _ => agrees_bind fun _ => ?_
  exact (agrees_separatedUnless _ ',' (agrees_method hg)).then _

/-! ## Documents -/

theorem agrees_plainItem (hg : d.registry.Grows later) :
    Agrees d.plainItem (d.withRegistry later).plainItem :=
  agrees_bind fun _ =>
    ((agrees_value hg d.maxDepth).then _).ite ((agrees_widget hg d.maxDepth).then _)

theorem agrees_item (hg : d.registry.Grows later) : Agrees d.item (d.withRegistry later).item := by
  refine agrees_bind fun _ => agrees_bind fun s => ?_
  split
  · exact agrees_bind fun _ => (agrees_classDecl hg).then _
  · exact agrees_bind fun _ => (agrees_method hg).then _
  · exact .refl _
  · exact .refl _
  · exact agrees_plainItem hg

theorem agrees_document (hg : d.registry.Grows later) :
    Agrees d.document (d.withRegistry later).document := by
  have hroot : Agrees d.root (d.withRegistry later).root :=
    agrees_bind fun _ =>
      (agrees_bind fun _ => (agrees_separated '|' (agrees_item hg)).then _).ite (agrees_item hg)
  exact agrees_bind fun _ => (Agrees.refl _).ite (hroot.then _)

end

end Decoding

/-- Whatever is registered in the meantime, a text is read as before, or it has a reference in it
that had no meaning before. -/
theorem decode_run (symbols : Symbols) (r : Registry) (maxDepth : Nat) (text : String)
    (calls : List Registration) :
    (⟨symbols, r.run calls, maxDepth⟩ : Decoder).decode text =
        (⟨symbols, r, maxDepth⟩ : Decoder).decode text ∨
      ∃ error, (⟨symbols, r, maxDepth⟩ : Decoder).decode text = .error error ∧
        error.fault.kind = .unknownReferenceId := by
  let d : Decoding := ⟨⟨symbols, r, maxDepth⟩, Text.byteLength text.toList⟩
  have hg : d.registry.Grows (r.run calls) := Registry.grows_run r calls
  rcases Decoding.agrees_document hg ⟨text.toList, [], .node⟩ with heq | ⟨error, herror, hkind⟩
  · exact .inl (congrArg (Except.map Prod.fst) heq)
  · exact .inr ⟨error, congrArg (Except.map Prod.fst) herror, hkind⟩

end WidgetShorthand
