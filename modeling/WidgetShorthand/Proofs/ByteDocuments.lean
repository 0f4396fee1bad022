import WidgetShorthand.Proofs.ByteTokens

/-!
# Documents by their bytes

The forms of the grammar are put together from tokens, in the same way for both cursors, and so the
two readers of each form do the same. A form is looked into only as far as it moves the cursor
itself: over a mark that has been seen, or back in front of a name that turns out to be the type of
a widget.
-/

namespace WidgetShorthand

open Text ByteReader

namespace ByteDecoding

variable {d : ByteDecoding} {c : Char}

/-! ## Types -/

theorem simulates_typeRefWith {args : Reader (List TypeRef)} {args' : ByteReader (List TypeRef)}
    (h : Simulates d.text args args') :
    Simulates d.text (d.counted.typeRefWith args) (d.typeRefWith args') :=
  (simulates_code _).bind fun _ => simulates_next.bind fun _ =>
    (h.bind fun _ => simulates_pure _).ite (simulates_pure _)

theorem simulates_typeArgs {arg : Reader TypeRef} {arg' : ByteReader TypeRef}
    (h : Simulates d.text arg arg') (hp : Reader.Passes 0 arg) :
    Simulates d.text (d.counted.typeArgs arg) (d.typeArgs arg') :=
  (simulates_openBracket _).bind fun _ => (simulates_separated _ h hp).bind fun _ =>
    simulates_closing _

theorem simulates_typeRef (levels : Nat) :
    Simulates d.text (d.counted.typeRef levels) (d.typeRef levels) := by
  induction levels with
  | zero => exact simulates_typeRefWith simulates_tooDeep
  | succ levels ih =>
      exact simulates_typeRefWith (simulates_typeArgs ih (Decoding.passes_typeRef levels).onward)

/-! ## References -/

section

variable {value : Reader Value} {value' : ByteReader Value} {widget body : Reader Widget}
  {widget' body' : ByteReader Widget} {list : Reader (List Value)} {list' : ByteReader (List Value)}

theorem simulates_argument (hv : Simulates d.text value value') :
    Simulates d.text (d.counted.argument value) (d.argument value') := by
  refine simulates_next.bind fun c => ?_
  by_cases hcomma : c = some ','
  · subst hcomma
    exact simulates_pure _
  by_cases hcloser : c = some ')'
  · subst hcloser
    exact simulates_pure _
  simp only
  refine simulates_get fun s t h => hv.bind fun v => ?_
  cases v with
  | scalar x => exact simulates_pure (some x)
  | widget w => exact simulates_failAt h.position
  | list vs => exact simulates_failAt h.position

theorem simulates_arguments {arg : Reader (Option Scalar)} {arg' : ByteReader (Option Scalar)}
    {tooMany : Reader (List (Option Scalar))} {tooMany' : ByteReader (List (Option Scalar))}
    (h : Simulates d.text arg arg') (htooMany : Simulates d.text tooMany tooMany') (slots : Nat) :
    Simulates d.text (Decoding.arguments arg tooMany slots) (d.arguments arg' tooMany' slots) := by
  induction slots with
  | zero => exact h.bind fun _ => htooMany
  | succ slots ih =>
      refine h.bind fun _ => (simulates_eat _).bind fun _ => ?_
      exact (ih.bind fun _ => simulates_pure _).ite (simulates_pure _)

theorem simulates_callArguments (hv : Simulates d.text value value') (entry : Entry) :
    Simulates d.text (d.counted.callArguments value entry) (d.callArguments value' entry) :=
  simulates_next.bind fun _ =>
    (simulates_pure _).ite (simulates_arguments (simulates_argument hv) simulates_fail _)

theorem simulates_referenceFrom
    (hv : Simulates d.text value value') {start : List Char} {mark : Nat}
    (hmark : mark = Reader.offset (byteLength d.text) start) :
    Simulates d.text (d.counted.referenceFrom value start) (d.referenceFrom value' mark) := by
  intro s t h
  refine outcome_get ((outcome_passWhile isNarrow_isReferenceChar h).then fun t₁ h₁ => ?_)
  refine outcome_get ?_
  have happend := List.takeWhile_append_dropWhile (p := isReferenceChar) (l := s.rest)
  refine (outcome_slice h₁ h.within.rest happend h.position h₁.position).then fun t₂ h₂ => ?_
  refine Simulates.ite simulates_unexpected ?_ _ t₂ h₂
  have hknown : d.counted.registry = d.registry := rfl
  rw [hknown]
  cases d.registry.get? (String.ofList (s.rest.takeWhile isReferenceChar)) with
  | none => exact simulates_failAt hmark
  | some entry =>
      refine (simulates_openBracket _).bind fun _ => ?_
      refine (simulates_callArguments hv _).bind fun args => ?_
      refine simulates_closeBracket.bind fun _ => ?_
      cases Decoding.fill entry args with
      | some w => exact simulates_pure w
      | none => exact simulates_failAt hmark

theorem simulatesAt_reference (hv : Simulates d.text value value') :
    SimulatesAt d.text (some '@') (d.counted.reference value) (d.reference value') := by
  intro s t h hc
  exact (simulatesAt_advance rfl).bind (fun _ => simulates_referenceFrom hv h.position) s t h hc

/-! ## Widgets and values -/

theorem simulates_property (hv : Simulates d.text value value') :
    Simulates d.text (d.counted.property value) (d.property value') :=
  (simulates_expectNow _).bind fun _ => simulates_propertyKey.bind fun _ =>
    (simulates_expect _).bind fun _ => (simulates_expectNow _).bind fun _ => hv.bind fun _ =>
      (simulates_expectNow _).bind fun _ => simulates_pure _

theorem simulates_properties (hv : Simulates d.text value value') (hp : Reader.Passes 0 value) :
    Simulates d.text (d.counted.properties value) (d.properties value') :=
  (simulates_openBracket _).bind fun _ => (simulates_expectNow _).bind fun _ =>
    (simulates_separatedUnless _ _ (simulates_property hv)
      (Decoding.passes_property hp).onward).bind fun _ => simulates_closing _

theorem simulates_child (hw : Simulates d.text widget widget') :
    Simulates d.text (Decoding.child widget) (child widget') :=
  hw.bind fun _ => (simulates_expectNow _).bind fun _ => simulates_pure _

theorem simulates_children (hw : Simulates d.text widget widget') (hp : Reader.Passes 0 widget) :
    Simulates d.text (d.counted.children widget) (d.children widget') :=
  (simulates_openBracket _).bind fun _ => (simulates_expectNow _).bind fun _ =>
    (simulates_separatedUnless _ _ (simulates_child hw) (Decoding.passes_child hp)).bind fun _ =>
      simulates_closing _

theorem simulates_fullWidget (hv : Simulates d.text value value') (hpv : Reader.Passes 0 value)
    (hw : Simulates d.text widget widget') (hpw : Reader.Passes 0 widget) :
    Simulates d.text (d.counted.fullWidget value widget) (d.fullWidget value' widget') := by
  refine (simulates_code _).bind fun name => simulates_next.bind fun _ => ?_
  have hbehind (ps : List Property) : Simulates d.text (do
      let ws ← if (← Reader.next) = some '[' then d.counted.children widget else pure []
      return (⟨name, ps, ws⟩ : Widget)) (do
      let ws ← if (← next d.text) = some '[' then d.children widget' else pure []
      return (⟨name, ps, ws⟩ : Widget)) :=
    simulates_next.bind fun _ =>
      ((simulates_children hw hpw).bind fun _ => simulates_pure _).ite (simulates_pure _)
  exact ((simulates_properties hv hpv).bind hbehind).ite ((simulates_pure _).bind hbehind)

theorem simulates_widgetBody (hv : Simulates d.text value value') (hpv : Reader.Passes 0 value)
    (hw : Simulates d.text widget widget') (hpw : Reader.Passes 0 widget) :
    Simulates d.text (d.counted.widgetBody value widget) (d.widgetBody value' widget') := by
  refine simulates_peek_then fun c => ?_
  split
  · next hmark =>
      subst hmark
      exact simulatesAt_reference hv
  · exact (simulates_fullWidget hv hpv hw hpw).at

theorem simulates_widgetWith (hb : Simulates d.text body body') :
    Simulates d.text (d.counted.widgetWith body) (d.widgetWith body') := by
  refine (simulates_expectNow _).bind fun _ => simulates_next.bind fun c => ?_
  cases c with
  | none => exact simulates_unexpected
  | some c => exact hb.ite simulates_unexpected

theorem simulates_list (hv : Simulates d.text value value') (hp : Reader.Passes 0 value) :
    Simulates d.text (d.counted.list value) (d.list value') :=
  (simulates_openBracket _).bind fun _ =>
    (simulates_separatedUnless _ _ hv hp).bind fun _ => simulates_closing _

/-- The cursor in bytes goes back to the position that it had in front of the name. -/
theorem simulates_nameOrWidget (hw : Simulates d.text widget widget') :
    Simulates d.text (d.counted.nameOrWidget widget) (d.nameOrWidget widget') := by
  refine simulates_get fun s t h => simulates_path.bind fun name => simulates_next.bind fun c => ?_
  have hback : Simulates d.text (do
      Reader.moveTo s.rest
      let w ← widget
      return Value.widget w) (do
      moveTo t.position
      let w ← widget'
      return Value.widget w) :=
    (simulates_moveTo h.within.rest h.position).bind fun _ => hw.bind fun _ => simulates_pure _
  by_cases hbrace : c = some '{'
  · subst hbrace
    exact hback
  by_cases hbracket : c = some '['
  · subst hbracket
    exact hback
  simp only
  exact simulates_pure _

theorem simulates_valueWith
    (hl : Simulates d.text list list') (hw : Simulates d.text widget widget') :
    Simulates d.text (d.counted.valueWith list widget) (d.valueWith list' widget') := by
  refine simulates_next_then fun c => ?_
  cases c with
  | none => exact simulates_unexpected.at
  | some c =>
      by_cases hquote : c = '"'
      · subst hquote
        exact (simulates_string.bind fun _ => simulates_pure _).at
      by_cases hconstant : c = '~'
      · subst hconstant
        exact simulatesAt_constant.bind fun _ => simulates_pure _
      by_cases hliteral : c = '#'
      · subst hliteral
        exact simulatesAt_foldedLiteral.bind fun _ => simulates_pure _
      by_cases hexpression : c = '&'
      · subst hexpression
        exact simulatesAt_expression.bind fun _ => simulates_pure _
      by_cases hlist : c = '['
      · subst hlist
        exact (hl.bind fun _ => simulates_pure _).at
      by_cases hreference : c = '@'
      · subst hreference
        exact (hw.bind fun _ => simulates_pure _).at
      by_cases hname : c = '!'
      · subst hname
        exact (hw.bind fun _ => simulates_pure _).at
      -- No mark, so both readers are in their last branch.
      simp only
      refine (Simulates.ite ?_ ((simulates_nameOrWidget hw).ite simulates_unexpected)).at
      exact simulates_number.bind fun _ => simulates_pure _

theorem simulates_value_widget (levels : Nat) :
    Simulates d.text (d.counted.value levels) (d.value levels) ∧
      Simulates d.text (d.counted.widget levels) (d.widget levels) := by
  induction levels with
  | zero =>
      have hwidget : Simulates d.text (d.counted.widget 0) (d.widget 0) :=
        simulates_widgetWith simulates_tooDeep
      exact ⟨simulates_valueWith simulates_tooDeep hwidget, hwidget⟩
  | succ levels ih =>
      obtain ⟨hvalue, hwidget⟩ := ih
      have hpv : Reader.Passes 0 (d.counted.value levels) := (Decoding.passes_value levels).onward
      have hpw : Reader.Passes 0 (d.counted.widget levels) := (Decoding.passes_widget levels).onward
      have hbody : Simulates d.text (d.counted.widget (levels + 1)) (d.widget (levels + 1)) :=
        simulates_widgetWith (simulates_widgetBody hvalue hpv hwidget hpw)
      exact ⟨simulates_valueWith (simulates_list hvalue hpv) hbody, hbody⟩

theorem simulates_value (levels : Nat) :
    Simulates d.text (d.counted.value levels) (d.value levels) :=
  (simulates_value_widget levels).1

theorem simulates_widget (levels : Nat) :
    Simulates d.text (d.counted.widget levels) (d.widget levels) :=
  (simulates_value_widget levels).2

end

/-! ## Declarations -/

theorem simulatesAt_modifier : SimulatesAt d.text (some '%') d.counted.modifier d.modifier := by
  refine (simulatesAt_advance rfl).bind fun _ => (simulates_code _).bind fun _ => ?_
  refine simulates_peek_then fun c => ?_
  split
  · next hdot =>
      subst hdot
      exact (simulatesAt_advance rfl).bind fun _ => simulates_pure _
  · exact simulates_unexpected.at

theorem simulates_modifiersLoop (fuel : Nat) :
    Simulates d.text (d.counted.modifiersLoop fuel) (d.modifiersLoop fuel) := by
  induction fuel with
  | zero => exact simulates_pure _
  | succ fuel ih =>
      refine simulates_next_then fun c => ?_
      split
      · next hmark =>
          subst hmark
          exact simulatesAt_modifier.bind fun _ => ih.bind fun _ => simulates_pure _
      · exact (simulates_pure _).at

theorem simulates_modifiers : Simulates d.text d.counted.modifiers d.modifiers := by
  intro s t h
  have hfuel : s.rest.length < d.text.length + 1 := Nat.lt_succ_of_le h.within.rest.length_le
  rw [← Decoding.modifiersLoop_of_lt hfuel]
  exact simulates_modifiersLoop _ s t h

theorem simulates_declaredType : Simulates d.text d.counted.declaredType d.declaredType :=
  (simulates_eat _).bind fun _ =>
    ((simulates_typeRef _).bind fun _ => simulates_pure _).ite (simulates_pure _)

theorem simulates_initializer : Simulates d.text d.counted.initializer d.initializer :=
  (simulates_eat _).bind fun _ =>
    ((simulates_value _).bind fun _ => simulates_pure _).ite (simulates_pure _)

theorem simulates_superType : Simulates d.text d.counted.superType d.superType := by
  refine simulates_next.bind fun _ => Simulates.ite ?_ (simulates_pure _)
  exact (simulates_openBracket _).bind fun _ => (simulates_typeRef _).bind fun _ =>
    simulates_closing _

theorem simulates_param : Simulates d.text d.counted.param d.param :=
  simulates_identifier.bind fun _ => simulates_declaredType.bind fun _ => simulates_pure _

theorem simulates_params : Simulates d.text d.counted.params d.params :=
  (simulates_openBracket _).bind fun _ =>
    (simulates_separatedUnless _ _ simulates_param Decoding.passes_param.onward).bind fun _ =>
      simulates_closing _

theorem simulates_field : Simulates d.text d.counted.field d.field :=
  simulates_modifiers.bind fun _ => simulates_identifier.bind fun _ =>
    simulates_declaredType.bind fun _ => simulates_initializer.bind fun _ => simulates_pure _

theorem simulates_statementValue : Simulates d.text d.counted.statementValue d.statementValue := by
  refine simulates_next.bind fun c => ?_
  by_cases hsemicolon : c = some ';'
  · subst hsemicolon
    exact simulates_pure _
  by_cases hbrace : c = some '\x7d'
  · subst hbrace
    exact simulates_pure _
  simp only
  exact (simulates_value _).bind fun _ => simulates_pure _

theorem simulates_statement : Simulates d.text d.counted.statement d.statement :=
  simulates_modifiers.bind fun _ => simulates_statementValue.bind fun _ =>
    simulates_fail.ite (simulates_pure _)

theorem simulates_statements : Simulates d.text d.counted.statements d.statements :=
  (simulates_openBracket _).bind fun _ =>
    (simulates_separatedUnless _ _ simulates_statement
      Decoding.passes_statement.onward).bind fun _ => simulates_closing _

theorem simulates_methodBody : Simulates d.text d.counted.methodBody d.methodBody := by
  refine simulates_next_then fun c => ?_
  by_cases hequals : c = some '='
  · subst hequals
    exact (simulatesAt_advance rfl).bind fun _ => (simulates_widget _).bind fun _ =>
      simulates_pure _
  by_cases hbrace : c = some '\x7b'
  · subst hbrace
    exact (simulates_statements.bind fun _ => simulates_pure _).at
  simp only
  exact simulates_unexpected.at

theorem simulates_method : Simulates d.text d.counted.method d.method :=
  simulates_modifiers.bind fun _ => simulates_identifier.bind fun _ =>
    simulates_params.bind fun _ =>
    simulates_declaredType.bind fun _ => simulates_methodBody.bind fun _ => simulates_pure _

theorem simulates_classDecl : Simulates d.text d.counted.classDecl d.classDecl :=
  simulates_identifier.bind fun _ => simulates_superType.bind fun _ =>
    (simulates_expect _).bind fun _ =>
      (simulates_separatedUnless _ _ simulates_field Decoding.passes_field.onward).bind fun _ =>
        (simulates_expect _).bind fun _ =>
          (simulates_separatedUnless _ _ simulates_method
            Decoding.passes_method.onward).bind fun _ => simulates_pure _

/-! ## Documents -/

theorem simulates_declarationHeader :
    Simulates d.text d.counted.declarationHeader d.declarationHeader :=
  simulates_identifier.bind fun _ => simulates_expect _

theorem simulates_plainItem : Simulates d.text d.counted.plainItem d.plainItem := by
  refine simulates_next.bind fun c =>
    Simulates.ite ?_ ((simulates_widget _).bind fun _ => simulates_pure _)
  refine (simulates_value _).bind fun v => ?_
  cases v with
  | scalar x =>
      cases x with
      | literal l => exact simulates_pure (Node.literal l)
      | ident name => exact simulates_fail
      | expr text => exact simulates_fail
  | widget w => exact simulates_fail
  | list vs => exact simulates_fail

theorem simulates_item : Simulates d.text d.counted.item d.item := by
  refine (simulates_expectNow _).bind fun _ => ?_
  intro s t h
  refine outcome_look ((outcome_declaration? h).then fun t' h' => ?_)
  generalize Decoding.declaration? s.rest = found
  refine Simulates.run ?_ h'
  cases found with
  | none => exact simulates_plainItem
  | some name =>
      by_cases hclass : name = "c"
      · subst hclass
        exact simulates_declarationHeader.bind fun _ => simulates_classDecl.bind fun _ =>
          simulates_pure _
      by_cases hmethod : name = "m"
      · subst hmethod
        exact simulates_declarationHeader.bind fun _ => simulates_method.bind fun _ =>
          simulates_pure _
      by_cases hunit : name = "u"
      · subst hunit
        exact simulates_fail
      simp only
      exact simulates_fail

theorem simulates_root : Simulates d.text d.counted.root d.root := by
  intro s t h
  refine outcome_look ((outcome_declaration? h).then fun t' h' => ?_)
  refine Simulates.run (Simulates.ite ?_ simulates_item) h'
  exact simulates_declarationHeader.bind fun _ =>
    (simulates_separated _ simulates_item Decoding.passes_item.onward).bind fun _ =>
      simulates_pure _

theorem simulates_document : Simulates d.text d.counted.document d.document :=
  simulates_next.bind fun _ => (simulates_pure _).ite
    (simulates_root.bind fun _ => simulates_next.bind fun _ =>
      simulates_unexpected.ite (simulates_pure _))

end ByteDecoding

end WidgetShorthand
