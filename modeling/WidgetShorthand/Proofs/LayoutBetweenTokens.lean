import WidgetShorthand.Proofs.TokenBlindness

/-!
# Layout between tokens

A document that is read consists of whole tokens and layout, and more layout around the tokens does
not change what is read. The forms are put together from readers that are blind to layout. Where a
form looks ahead, it looks for a character behind layout, or for a name and a colon with layout
around them; and where a form goes back, it goes back to a place whose text is alike in both
documents.
-/

namespace WidgetShorthand

open Text Reader

namespace Decoding

variable {d : Decoding} {size : Nat} {P : Cursor → Prop} {value value' : Reader Value}
  {widget widget' body body' : Reader Widget} {list list' : Reader (List Value)}

theorem blind_tooDeep {α : Type} : Blind P (d.tooDeep (α := α)) (d.resized size).tooDeep :=
  blind_of_fails fun _ _ => nofun

/-! ## Types -/

theorem blind_typeRefWith {args args' : Reader (List TypeRef)} (h : Blind Anywhere args args') :
    Blind P (d.typeRefWith args) ((d.resized size).typeRefWith args') :=
  blind_code.then fun _ => blind_next_then fun _ =>
    (h.at.then fun _ => blind_pure _).ite (blind_pure _)

theorem blind_typeArgs {arg arg' : Reader TypeRef} (h : BlindElement arg arg') :
    Blind P (d.typeArgs arg) ((d.resized size).typeArgs arg') :=
  blind_between (by decide) (blind_separated (by decide) h) fun _ => blind_pure _

theorem blind_typeRef (levels : Nat) :
    Blind P (d.typeRef levels) ((d.resized size).typeRef levels) := by
  induction levels generalizing P with
  | zero => exact blind_typeRefWith blind_tooDeep
  | succ levels ih =>
      have harg : BlindElement (d.typeRef levels) ((d.resized size).typeRef levels) :=
        ⟨ih, (passes_typeRef levels).onward, (passes_typeRef levels).onward⟩
      exact blind_typeRefWith (blind_typeArgs harg)

/-! ## References -/

theorem blind_argument (hv : Blind Anywhere value value') :
    Blind P (d.argument value) ((d.resized size).argument value') := by
  refine blind_next_then fun c => ?_
  have hscalar (c : Option Char) : Blind (Facing c)
      (get >>= fun s => value >>= d.scalarFrom s.rest)
      (get >>= fun s => value' >>= (d.resized size).scalarFrom s.rest) := by
    refine blind_get fun s t _ _ _ => hv.at.then fun v => ?_
    cases v with
    | scalar x => exact blind_pure (some x)
    | widget w => exact blind_of_fails fun _ _ => nofun
    | list vs => exact blind_of_fails fun _ _ => nofun
  split
  · exact blind_pure none
  · exact blind_pure none
  · exact hscalar _

theorem blind_arguments {arg arg' : Reader (Option Scalar)}
    {tooMany tooMany' : Reader (List (Option Scalar))} (h : Blind Anywhere arg arg')
    (htooMany : ∀ s q, tooMany s ≠ .ok q) (slots : Nat) :
    Blind P (arguments arg tooMany slots) (arguments arg' tooMany' slots) := by
  induction slots generalizing P with
  | zero => exact h.at.then fun _ => blind_of_fails htooMany
  | succ slots ih =>
      exact h.at.then fun _ => (blind_eat (by decide)).then fun _ =>
        (ih.then fun _ => blind_pure _).ite (blind_pure _)

theorem blind_callArguments (hv : Blind Anywhere value value') (entry : Entry) :
    Blind P (d.callArguments value entry) ((d.resized size).callArguments value' entry) := by
  have htooMany (s : Cursor) (q : List (Option Scalar) × Cursor) :
      fail d.size (.tooManyArguments entry.id entry.arity) s ≠ .ok q := nofun
  exact blind_next_then fun _ =>
    (blind_pure []).ite (blind_arguments (blind_argument hv) htooMany _)

theorem blind_callOf (hv : Blind Anywhere value value') (start start' : List Char)
    (entry : Entry) :
    Blind P (d.callOf value start entry) ((d.resized size).callOf value' start' entry) := by
  refine blind_between (by decide) (blind_callArguments hv entry) fun args => ?_
  cases fill entry args with
  | some w => exact blind_pure w
  | none => exact blind_of_fails fun _ _ => nofun

theorem reference_eq {s : Cursor} {u : List Char} (hs : s.rest = '@' :: u) :
    d.reference value s = d.referenceFrom value ('@' :: u) { s with rest := u } := by
  have hrun : d.reference value s =
      d.referenceFrom value s.rest { s with rest := s.rest.tail } := rfl
  rw [hrun, hs, List.tail_cons]

/-- The mark and the id are a token, and the pattern depends on the id only. -/
theorem blind_reference (hv : Blind Anywhere value value') :
    Blind (Facing (some '@')) (d.reference value) ((d.resized size).reference value') := by
  intro s w s' hs hr
  obtain ⟨u, hu⟩ := List.head?_eq_some_iff.mp hs.ahead
  rw [reference_eq hu] at hr
  obtain ⟨entry, hentry, hne, hcall⟩ := exists_entry_of_referenceFrom hr
  dsimp only at hentry hne hcall
  have hsplit : u.takeWhile isReferenceChar ++ u.dropWhile isReferenceChar = u :=
    List.takeWhile_append_dropWhile
  have htoken : IsLexeme ('@' :: u.takeWhile isReferenceChar) (u.dropWhile isReferenceChar) := by
    show behindReference? (u.takeWhile isReferenceChar ++ u.dropWhile isReferenceChar) = _
    rw [hsplit]
    exact behindReference?_eq_some.mpr ⟨hne, rfl⟩
  have hs' : dropBlanks s.rest =
      '@' :: u.takeWhile isReferenceChar ++ u.dropWhile isReferenceChar := by
    rw [hs.solid, hu, List.cons_append, hsplit]
  have hcallOf (start : List Char) : Blind Anywhere (d.callOf value ('@' :: u) entry)
      ((d.resized size).callOf value' start entry) := blind_callOf hv _ start entry
  refine ⟨(Passed.of_lexeme htoken hs').trans (hcallOf [] trivial hcall).1, fun t ht hst => ?_⟩
  obtain ⟨rest, ht', htoken', halike⟩ := hst.rest.cut hs' htoken
  rw [ht.solid, List.cons_append] at ht'
  have hbehind : behindReference? (u.takeWhile isReferenceChar ++ rest) = some rest := htoken'
  obtain ⟨hne', hdrop⟩ := behindReference?_eq_some.mp hbehind
  have hentry' : (d.resized size).registry.get? (String.ofList
      ((u.takeWhile isReferenceChar ++ rest).takeWhile isReferenceChar)) = some entry := by
    rw [takeWhile_of_dropWhile hdrop]
    exact hentry
  rw [reference_eq ht', referenceFrom_of_entry hentry' hne', hdrop]
  exact (hcallOf _ trivial hcall).2 trivial ⟨halike, hst.brackets⟩

/-! ## Widgets and values -/

theorem blind_property (hv : Blind Anywhere value value') :
    Blind P (d.property value) ((d.resized size).property value') :=
  (blind_expectNow _).then fun _ => blind_propertyKey.then fun _ =>
    (blind_expect (by decide)).then fun _ => (blind_expectNow _).then fun _ =>
      hv.then fun _ => (blind_expectNow _).then fun _ => blind_pure _

theorem blind_properties (hv : BlindElement value value') :
    Blind P (d.properties value) ((d.resized size).properties value') := by
  have hproperty : BlindElement (d.property value) ((d.resized size).property value') :=
    ⟨blind_property hv.blind, (passes_property hv.passes).onward,
      (passes_property hv.passes').onward⟩
  have hinner : Blind Anywhere
      (do
        expectNow .propertyKeyOrClose
        separatedUnless (· == some '}') ',' (d.property value))
      (do
        expectNow .propertyKeyOrClose
        separatedUnless (· == some '}') ',' ((d.resized size).property value')) :=
    (blind_expectNow _).then fun _ => blind_separatedUnless _ (by decide) hproperty
  exact blind_between (by decide) hinner fun _ => blind_pure _

theorem blind_children (hw : BlindElement widget widget') :
    Blind P (d.children widget) ((d.resized size).children widget') := by
  have hchild : BlindElement (child widget) (child widget') :=
    ⟨hw.blind.then fun _ => (blind_expectNow _).then fun _ => blind_pure _,
      passes_child hw.passes, passes_child hw.passes'⟩
  have hinner : Blind Anywhere
      (do
        expectNow .childOrClose
        separatedUnless (· == some ']') ',' (child widget))
      (do
        expectNow .childOrClose
        separatedUnless (· == some ']') ',' (child widget')) :=
    (blind_expectNow _).then fun _ => blind_separatedUnless _ (by decide) hchild
  exact blind_between (by decide) hinner fun _ => blind_pure _

theorem blind_fullWidget (hv : BlindElement value value') (hw : BlindElement widget widget') :
    Blind P (d.fullWidget value widget) ((d.resized size).fullWidget value' widget') := by
  refine blind_code.then fun typeName => blind_next_then fun c => ?_
  have hbehind (ps : List Property) : Blind Anywhere
      (do
        let ws ← if (← next) = some '[' then d.children widget else pure []
        return (⟨typeName, ps, ws⟩ : Widget))
      (do
        let ws ← if (← next) = some '[' then (d.resized size).children widget' else pure []
        return (⟨typeName, ps, ws⟩ : Widget)) :=
    blind_next_then fun _ => ((blind_children hw).then fun _ => blind_pure _).ite (blind_pure _)
  exact ((blind_properties hv).then hbehind).ite ((blind_pure []).then hbehind)

theorem blind_widgetBody (hv : BlindElement value value') (hw : BlindElement widget widget')
    {c : Option Char} :
    Blind (Facing c) (d.widgetBody value widget) ((d.resized size).widgetBody value' widget') :=
  blind_peek_then ((blind_reference hv.blind).iteChar (blind_fullWidget hv hw))

theorem blind_widgetWith (hb : ∀ c, Blind (Facing c) body body') :
    Blind P (d.widgetWith body) ((d.resized size).widgetWith body') := by
  refine (blind_expectNow _).then fun _ => blind_next_then fun c => ?_
  cases c with
  | none => exact blind_unexpected
  | some c => exact (hb (some c)).ite blind_unexpected

theorem blind_list (hv : BlindElement value value') :
    Blind P (d.list value) ((d.resized size).list value') :=
  blind_between (by decide) (blind_separatedUnless _ (by decide) hv) fun _ => blind_pure _

/-- What is made of a name, given what stands behind it. -/
def behindPath (start : List Char) (widget : Reader Widget) (name : String) :
    Option Char → Reader Value
  | some '{' | some '[' => widgetFrom start widget
  | _ => pure (.scalar (.ident name))

theorem nameOrWidget_of_path {t t₁ t₂ : Cursor} {name : String} {c : Option Char}
    (hname : path d.size t = .ok (name, t₁)) (hnext : next t₁ = .ok (c, t₂)) :
    d.nameOrWidget widget t = behindPath t.rest widget name c t₂ := by
  refine (run_bind_of_ok (show (get : Reader Cursor) t = .ok (t, t) from rfl)).trans ?_
  exact (run_bind_of_ok hname).trans ((run_bind_of_ok hnext).trans rfl)

/-- Both readers go on, or they go back in front of the name, where the texts are alike. -/
theorem blind_behindPath (hw : Blind Anywhere widget widget') {s s₂ s' : Cursor} {v : Value}
    {name : String} {c : Option Char} (hpassed₂ : Passed s.rest s₂.rest)
    (hr : behindPath s.rest widget name c s₂ = .ok (v, s')) : Passed s.rest s'.rest ∧
      ∀ ⦃t t₂⦄, s.Alike t → s₂.Alike t₂ →
        ∃ t', behindPath t.rest widget' name c t₂ = .ok (v, t') ∧ s'.Alike t' := by
  have hwidget : Blind Anywhere (widget >>= fun w => pure (Value.widget w))
      (widget' >>= fun w => pure (Value.widget w)) := hw.then fun _ => blind_pure _
  have hback (hr : (widget >>= fun w => pure (Value.widget w)) { s₂ with rest := s.rest } =
      .ok (v, s')) : Passed s.rest s'.rest ∧ ∀ ⦃t t₂⦄, s.Alike t → s₂.Alike t₂ →
        ∃ t', widgetFrom t.rest widget' t₂ = .ok (v, t') ∧ s'.Alike t' := by
    obtain ⟨hpassed, hsame⟩ := hwidget trivial hr
    refine ⟨hpassed, fun t t₂ hst hst₂ => ?_⟩
    exact hsame (t := { t₂ with rest := t.rest }) trivial ⟨hst.rest, hst₂.brackets⟩
  unfold behindPath at hr ⊢
  split at hr
  · exact hback hr
  · exact hback hr
  · cases hr
    exact ⟨hpassed₂, fun t t₂ _ hst₂ => ⟨t₂, rfl, hst₂⟩⟩

theorem blind_nameOrWidget (hw : Blind Anywhere widget widget') {c : Char}
    (hc : isNameStart c = true) : Blind (Facing (some c)) (d.nameOrWidget widget)
      ((d.resized size).nameOrWidget widget') := by
  intro s v s' hs hr
  obtain ⟨_, _, hget, hr⟩ := run_bind_eq_ok.mp hr
  cases hget
  obtain ⟨name, s₁, hname, hr⟩ := run_bind_eq_ok.mp hr
  obtain ⟨c', s₂, hnext, hr⟩ := run_bind_eq_ok.mp hr
  have hpath : Blind (Facing (some c)) (path d.size) (path size) := blind_path hc
  obtain ⟨hpassed₁, hsame₁⟩ := hpath hs hname
  obtain ⟨hpassed₂, hsame₂⟩ := blind_next (P := Anywhere) trivial hnext
  have hr : behindPath s.rest widget name c' s₂ = .ok (v, s') := hr
  obtain ⟨hpassed, hsame⟩ := blind_behindPath hw (hpassed₁.trans hpassed₂) hr
  refine ⟨hpassed, fun t ht hst => ?_⟩
  obtain ⟨t₁, hname', hst₁⟩ := hsame₁ ht hst
  obtain ⟨t₂, hnext', hst₂⟩ := hsame₂ trivial hst₁
  rw [nameOrWidget_of_path (d := d.resized size) hname' hnext']
  exact hsame hst hst₂

theorem blind_valueWith (hl : Blind Anywhere list list') (hw : Blind Anywhere widget widget') :
    Blind P (d.valueWith list widget) ((d.resized size).valueWith list' widget') := by
  refine blind_next_then fun c => ?_
  split
  · exact blind_string.then fun _ => blind_pure _
  · exact blind_constant.then fun _ => blind_pure _
  · exact blind_foldedLiteral.then fun _ => blind_pure _
  · exact blind_expression.then fun _ => blind_pure _
  · exact hl.at.then fun _ => blind_pure _
  · exact hw.at.then fun _ => blind_pure _
  · exact hw.at.then fun _ => blind_pure _
  · next c _ _ _ _ _ _ _ =>
      show Blind (Facing (some c)) (if _ then _ else _) (if _ then _ else _)
      split
      · next hnumber => exact (blind_number hnumber).then fun _ => blind_pure _
      · split
        · next hname => exact blind_nameOrWidget hw hname
        · exact blind_unexpected
  · exact blind_unexpected

theorem blind_value_widget (levels : Nat) :
    BlindElement (d.value levels) ((d.resized size).value levels) ∧
      BlindElement (d.widget levels) ((d.resized size).widget levels) := by
  have hlevel {levels : Nat} (hv : Blind Anywhere (d.value levels) ((d.resized size).value levels))
      (hw : Blind Anywhere (d.widget levels) ((d.resized size).widget levels)) :
      BlindElement (d.value levels) ((d.resized size).value levels) ∧
        BlindElement (d.widget levels) ((d.resized size).widget levels) :=
    ⟨⟨hv, (passes_value levels).onward, (passes_value levels).onward⟩,
      ⟨hw, (passes_widget levels).onward, (passes_widget levels).onward⟩⟩
  induction levels with
  | zero =>
      have hwidget : Blind Anywhere (d.widget 0) ((d.resized size).widget 0) :=
        blind_widgetWith fun _ => blind_tooDeep
      exact hlevel (blind_valueWith blind_tooDeep hwidget) hwidget
  | succ levels ih =>
      obtain ⟨hv, hw⟩ := ih
      have hbody : Blind Anywhere
          (d.widgetWith (d.widgetBody (d.value levels) (d.widget levels)))
          ((d.resized size).widgetWith
            ((d.resized size).widgetBody ((d.resized size).value levels)
              ((d.resized size).widget levels))) :=
        blind_widgetWith fun _ => blind_widgetBody hv hw
      refine hlevel ?_ ?_
      · rw [value_succ, value_succ]
        exact blind_valueWith (blind_list hv) hbody
      · rw [widget_succ, widget_succ]
        exact hbody

theorem blind_value (levels : Nat) :
    Blind P (d.value levels) ((d.resized size).value levels) :=
  (blind_value_widget levels).1.blind.at

theorem blind_widget (levels : Nat) :
    Blind P (d.widget levels) ((d.resized size).widget levels) :=
  (blind_value_widget levels).2.blind.at

/-! ## Declarations -/

theorem blind_modifiers : Blind P d.modifiers (d.resized size).modifiers := by
  intro s words s' _ hr
  have hround (_ : Nat) : Blind Anywhere d.keywordRound (d.resized size).keywordRound :=
    blind_next_then fun _ => (blind_modifier.then fun _ => blind_pure _).iteChar (blind_pure _)
  obtain ⟨hpassed, hsame⟩ := (repeats_modifiers s).blind hround hr
  exact ⟨hpassed, fun t _ hst => hsame hst (repeats_modifiers t)⟩

theorem blind_declaredType :
    Blind P d.declaredType (Decoding.declaredType (d.resized size)) :=
  (blind_eat (by decide)).then fun _ =>
    ((blind_typeRef _).then fun _ => blind_pure _).ite (blind_pure _)

theorem blind_initializer : Blind P d.initializer (d.resized size).initializer :=
  (blind_eat (by decide)).then fun _ =>
    ((blind_value _).then fun _ => blind_pure _).ite (blind_pure _)

theorem blind_field : BlindElement d.field (d.resized size).field where
  blind := blind_modifiers.then fun _ => blind_identifier.then fun _ =>
    blind_declaredType.then fun _ => blind_initializer.then fun _ => blind_pure _
  passes := passes_field.onward
  passes' := passes_field.onward

theorem blind_param : BlindElement d.param (d.resized size).param where
  blind := blind_identifier.then fun _ => blind_declaredType.then fun _ => blind_pure _
  passes := passes_param.onward
  passes' := passes_param.onward

theorem blind_statementValue : Blind P d.statementValue (d.resized size).statementValue := by
  refine blind_next_then fun c => ?_
  split
  · exact blind_pure none
  · exact blind_pure none
  · exact (blind_value _).then fun _ => blind_pure _

theorem blind_statement : BlindElement d.statement (d.resized size).statement where
  blind := blind_modifiers.then fun _ => blind_statementValue.then fun _ =>
    Blind.ite (blind_of_fails fun _ _ => nofun) (blind_pure _)
  passes := passes_statement.onward
  passes' := passes_statement.onward

theorem blind_statements : Blind P d.statements (d.resized size).statements :=
  blind_between (by decide) (blind_separatedUnless _ (by decide) blind_statement)
    fun _ => blind_pure _

theorem blind_methodBody : Blind P d.methodBody (d.resized size).methodBody := by
  refine blind_next_then fun c => ?_
  split
  · exact (blind_advance (by decide)).then fun _ => (blind_widget _).then fun _ => blind_pure _
  · exact blind_statements.then fun _ => blind_pure _
  · exact blind_unexpected

theorem blind_params : Blind P d.params (d.resized size).params :=
  blind_between (by decide) (blind_separatedUnless _ (by decide) blind_param) fun _ => blind_pure _

theorem blind_method : BlindElement d.method (d.resized size).method where
  blind := blind_modifiers.then fun _ => blind_identifier.then fun _ => blind_params.then fun _ =>
    blind_declaredType.then fun _ => blind_methodBody.then fun _ => blind_pure _
  passes := passes_method.onward
  passes' := passes_method.onward

theorem blind_superType : Blind P d.superType (d.resized size).superType :=
  blind_next_then fun _ => Blind.ite
    (blind_between (by decide) (blind_typeRef _) fun _ => blind_pure _) (blind_pure none)

theorem blind_classDecl : Blind P d.classDecl (d.resized size).classDecl :=
  blind_identifier.then fun _ => blind_superType.then fun _ =>
    (blind_expect (by decide)).then fun _ =>
      (blind_separatedUnless _ (by decide) blind_field).then fun _ =>
        (blind_expect (by decide)).then fun _ =>
          (blind_separatedUnless _ (by decide) blind_method).then fun _ => blind_pure _

/-! ## Documents -/

theorem blind_declarationHeader :
    Blind P d.declarationHeader (d.resized size).declarationHeader :=
  blind_identifier.then fun _ => blind_expect (by decide)

theorem blind_plainItem : Blind P d.plainItem (d.resized size).plainItem := by
  refine blind_next_then fun c => Blind.ite ?_ ((blind_widget _).then fun _ => blind_pure _)
  refine (blind_value _).then fun v => ?_
  split
  · exact blind_pure _
  · exact blind_of_fails fun _ _ => nofun

/-- What is declared does not depend on layout. -/
theorem declaration?_of_alike {u v : List Char} (h : Text.Alike u v) :
    declaration? u = declaration? v := by
  cases hname : startsName (dropBlanks u) with
  | false =>
      have hname' : startsName (dropBlanks v) = false := by
        rw [startsName_eq_any, ← h.head?, ← startsName_eq_any, hname]
      rw [declaration?, declaration?, hname, hname']
      rfl
  | true =>
      obtain ⟨hname', htake, hbehind⟩ := h.name hname
      rw [declaration?, declaration?, hname, hname', htake, hbehind.head?]

theorem blind_item : BlindElement d.item (d.resized size).item where
  blind := by
    refine (blind_expectNow _).then fun _ => blind_get fun s t _ _ hst => ?_
    rw [declaration?_of_alike hst.rest]
    split
    · exact blind_declarationHeader.then fun _ => blind_classDecl.then fun _ => blind_pure _
    · exact blind_declarationHeader.then fun _ => blind_method.blind.then fun _ => blind_pure _
    · exact blind_of_fails fun _ _ => nofun
    · exact blind_of_fails fun _ _ => nofun
    · exact blind_plainItem
  passes := passes_item.onward
  passes' := passes_item.onward

theorem blind_root : Blind P d.root (d.resized size).root := by
  refine blind_get fun s t _ _ hst => ?_
  rw [declaration?_of_alike hst.rest]
  refine Blind.ite (blind_declarationHeader.then fun _ => ?_) blind_item.blind.at
  exact (blind_separated (by decide) blind_item).then fun _ => blind_pure _

theorem blind_document : Blind P d.document (d.resized size).document :=
  blind_next_then fun _ => (blind_pure _).ite <| blind_root.then fun _ =>
    blind_next_then fun _ => blind_unexpected.ite (blind_pure _)

end Decoding

/-- A document that is read consists of whole tokens, and layout around them does not change what is
read. -/
theorem Decoder.decode_spread (d : Decoder) {text : String} {tree : Node}
    (h : d.decode text = .ok tree) : Tokenized text.toList ∧
      ∀ text' : String, Spread text.toList text'.toList → d.decode text' = .ok tree := by
  let reading : Decoding := { d with size := byteLength text.toList }
  obtain ⟨⟨_, s'⟩, hr, rfl⟩ := map_eq_ok.mp h
  have hblind (size : Nat) : Blind Anywhere reading.document (reading.resized size).document :=
    Decoding.blind_document
  refine ⟨(hblind 0 trivial hr).1.tokenized (Decoding.rest_of_document hr), fun text' hspread => ?_⟩
  have halike : Cursor.Alike ⟨text.toList, [], .node⟩ ⟨text'.toList, [], .node⟩ :=
    ⟨hspread.alike, rfl⟩
  obtain ⟨t', hr', -⟩ := (hblind (byteLength text'.toList) trivial hr).2 trivial halike
  exact map_eq_ok.mpr ⟨_, hr', rfl⟩

/-- Layout behind a name with its mark, around a colon, and at the end. -/
theorem Decoder.decode_spread_widget :
    let d : Decoder := ⟨.empty, .empty, 8⟩
    let tree : Node := .widget ⟨"P", [⟨"a", .scalar (.ident "b.c")⟩], []⟩
    d.decode "!P\x7ba:b.c\x7d" = .ok tree ∧ d.decode "!P \x7ba :\tb.c\x7d\n" = .ok tree := by
  intro d tree
  have hread : d.decode "!P\x7ba:b.c\x7d" = .ok tree := ok_of_toOption (by decide +kernel)
  have htext : "!P\x7ba:b.c\x7d".toList =
      ['!', 'P'] ++ (['\x7b'] ++ (['a'] ++ ([':'] ++ (['b', '.', 'c'] ++ (['\x7d'] ++ []))))) := by
    decide +kernel
  have hspaced : "!P \x7ba :\tb.c\x7d\n".toList = ['!', 'P'] ++ ' ' :: (['\x7b'] ++ (['a'] ++
      ' ' :: ([':'] ++ '\t' :: (['b', '.', 'c'] ++ (['\x7d'] ++ ['\n']))))) := by
    decide +kernel
  refine ⟨hread, (d.decode_spread hread).2 _ ?_⟩
  rw [htext, hspaced]
  refine .lexeme rfl (.added rfl (.lexeme rfl (.lexeme rfl (.added rfl (.lexeme rfl ?_)))))
  exact .added rfl (.lexeme rfl (.lexeme rfl (.added rfl (.rest []))))

end WidgetShorthand
