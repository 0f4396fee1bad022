import WidgetShorthand.Proofs.Progress

/-!
# Where reading fails

A reader is given a rest of the text of a document, and remembers brackets that stand in the same
text. It leaves a rest of the text and such brackets, or it fails and names places in the text.
`Stays` is this invariant. It asks nothing of the order of the places, so it does not matter to it
that a reader goes back once, or that a fault may be blamed on an earlier place than the one where
it was noticed.

Of the faults, one has no way to occur in good registries: that a slot of a pattern leads nowhere.
It takes a pattern that cannot be filled with whatever arguments there are.
-/

namespace WidgetShorthand

open Text Reader

/-- An error at a place in the text, and not the one about slots. -/
structure Located (size : Nat) (text : List Char) (error : ParseError) : Prop where
  place : ∃ place, place <:+ text ∧ error.position = offset size place
  fault : ∀ id, error.fault ≠ .unresolvedSlot id

/-- The positions that a fault names beside its own. -/
def Fault.positions : Fault → List Nat
  | .openAtEnd _ position _ => [position]
  | _ => []

/-- All that a cursor knows of is in the text. -/
structure Cursor.Within (text : List Char) (s : Cursor) : Prop where
  rest : s.rest <:+ text
  opened : ∀ o ∈ s.opened, o.start <:+ text

/-- Every pattern that is known can be filled, with whatever arguments. -/
def Decoding.Fillable (d : Decoder) : Prop :=
  ∀ ⦃id entry⦄, d.registry.get? id = some entry → ∀ args, Decoding.fill entry args ≠ none

/-- A fault that names places in the text only, and a slot only where a pattern cannot be filled. -/
structure Fault.Placed (d : Decoding) (text : List Char) (fault : Fault) : Prop where
  places : ∀ n ∈ fault.positions, ∃ place, place <:+ text ∧ n = offset d.size place
  slot : ∀ id, fault = .unresolvedSlot id → ¬ Decoding.Fillable d.toDecoder

/-- An error at a place in the text, with such a fault. -/
structure ParseError.Placed (d : Decoding) (text : List Char) (error : ParseError) : Prop where
  place : ∃ place, place <:+ text ∧ error.position = offset d.size place
  fault : error.fault.Placed d text

theorem Text.Quoted.suffix_fault {cs place : List Char} {fault : Quoted.Fault}
    (h : Quoted.read cs = .error (fault, place)) : place <:+ cs := by
  fun_induction Quoted.read cs generalizing fault place with
  | case1 => cases h; exact List.suffix_refl _
  | case2 => cases h
  | case3 => cases h; exact List.nil_suffix
  | case4 c r hc hq ih =>
      have hr := ih (map_eq_error.mp h)
      exact (hr.trans (List.suffix_cons c r)).trans (List.suffix_cons _ _)
  | case5 c r => cases h; exact List.suffix_cons _ _
  | case6 c r hq hb ih => exact (ih (map_eq_error.mp h)).trans (List.suffix_cons c r)

namespace Reader

variable {α β : Type} {d : Decoding} {text : List Char} {r : Reader α}

/-- The reader stays in the text, also when it fails. -/
def Stays (d : Decoding) (text : List Char) (r : Reader α) : Prop :=
  ∀ s, s.Within text → match r s with
    | .ok (_, s') => s'.Within text
    | .error error => error.Placed d text

/-! ## Steps -/

theorem Stays.bind {f : α → Reader β} (h : Stays d text r) (hf : ∀ x, Stays d text (f x)) :
    Stays d text (r >>= f) := by
  intro s hs
  have hr := h s hs
  show match Except.bind (r s) (fun q => f q.1 q.2) with
    | .ok (_, s') => s'.Within text
    | .error error => error.Placed d text
  cases hrun : r s with
  | error error =>
      rw [hrun] at hr
      exact hr
  | ok q =>
      rw [hrun] at hr
      exact hf q.1 q.2 hr

theorem Stays.ite {c : Prop} [Decidable c] {a b : Reader α} (ha : Stays d text a)
    (hb : Stays d text b) : Stays d text (if c then a else b) := by
  split
  · exact ha
  · exact hb

theorem stays_pure (x : α) : Stays d text (pure x) :=
  fun _ hs => hs

theorem stays_get {f : Cursor → Reader α} (h : ∀ s, s.Within text → Stays d text (f s)) :
    Stays d text (get >>= f) :=
  fun s hs => h s hs s hs

theorem stays_moveTo {rest : List Char} (h : rest <:+ text) : Stays d text (moveTo rest) :=
  fun _ hs => ⟨h, hs.opened⟩

theorem stays_modify {f : Cursor → Cursor} (h : ∀ s, s.Within text → (f s).Within text) :
    Stays d text (modify f : Reader Unit) :=
  h

theorem stays_failAt {place : List Char} {fault : Fault} (hplace : place <:+ text)
    (h : fault.Placed d text) : Stays d text (failAt (α := α) d.size place fault) :=
  fun _ _ => ⟨⟨place, hplace, rfl⟩, h⟩

theorem stays_fail {fault : Fault} (h : fault.Placed d text) :
    Stays d text (fail (α := α) d.size fault) :=
  stays_get fun _ hs => stays_failAt hs.rest h

/-- The open bracket that is named is one that the cursor has come across. -/
theorem unexpectedFault_placed {s : Cursor} (hs : s.Within text) (wanted : Wanted) :
    (unexpectedFault d.size s wanted).Placed d text := by
  unfold unexpectedFault
  split
  · split
    · exact ⟨nofun, nofun⟩
    · next o later hopened =>
        refine ⟨fun n hn => ?_, nofun⟩
        have hstart : o.start <:+ text := hs.opened o (by simp [hopened])
        exact ⟨o.start, hstart, List.mem_singleton.mp hn⟩
  · split
    · exact ⟨nofun, nofun⟩
    · exact ⟨nofun, nofun⟩

theorem stays_unexpected {wanted : Wanted} : Stays d text (unexpected (α := α) d.size wanted) :=
  stays_get fun _ hs => stays_fail (unexpectedFault_placed hs wanted)

/-! ## Looking and moving -/

theorem stays_expectNow (e : Expectation) : Stays d text (expectNow e) :=
  stays_modify fun _ hs => ⟨hs.rest, hs.opened⟩

theorem stays_peek : Stays d text peek :=
  stays_get fun _ _ => stays_pure _

theorem stays_advance : Stays d text advance :=
  stays_get fun _ hs => stays_moveTo ((List.tail_suffix _).trans hs.rest)

/-- Characters of one kind are passed. -/
theorem stays_passWhile (p : Char → Bool) :
    Stays d text (do moveTo ((← get).rest.dropWhile p) : Reader Unit) :=
  stays_get fun _ hs => stays_moveTo ((List.dropWhile_suffix p).trans hs.rest)

theorem stays_skipBlanks : Stays d text skipBlanks :=
  stays_passWhile isBlank

theorem stays_next : Stays d text next :=
  stays_skipBlanks.bind fun _ => stays_peek

theorem stays_eat (c : Char) : Stays d text (eat c) :=
  stays_next.bind fun _ => (stays_advance.bind fun _ => stays_pure _).ite (stays_pure _)

theorem stays_expect (c : Char) : Stays d text (expect d.size c) :=
  (stays_eat c).bind fun _ => (stays_pure _).ite stays_unexpected

theorem stays_openBracket (c : Char) : Stays d text (openBracket d.size c) := by
  refine stays_skipBlanks.bind fun _ => stays_get fun s hs => (stays_expect c).bind fun _ => ?_
  refine stays_modify fun s' hs' => ⟨hs'.rest, fun o ho => ?_⟩
  cases ho with
  | head => exact hs.rest
  | tail _ ho => exact hs'.opened o ho

theorem stays_closeBracket : Stays d text (closeBracket d.size) := by
  refine stays_get fun s _ => ?_
  split
  · exact stays_unexpected
  · refine (stays_eat _).bind fun _ => Stays.ite ?_ stays_unexpected
    exact stays_modify fun _ hs => ⟨hs.rest, fun o ho => hs.opened o (List.mem_of_mem_tail ho)⟩

/-- What ends with a bracket. -/
theorem stays_closing (x : α) : Stays d text (do closeBracket d.size; return x) :=
  stays_closeBracket.bind fun _ => stays_pure x

/-! ## Lists -/

theorem stays_separatedLoop (separator : Char) (h : Stays d text r) (fuel : Nat) :
    Stays d text (separatedLoop separator r fuel) := by
  induction fuel with
  | zero => exact h.bind fun _ => stays_pure _
  | succ fuel ih =>
      refine h.bind fun _ => (stays_eat _).bind fun _ => ?_
      exact (ih.bind fun _ => stays_pure _).ite (stays_pure _)

theorem stays_separated (separator : Char) (h : Stays d text r) :
    Stays d text (separated separator r) :=
  stays_get fun _ _ => stays_separatedLoop separator h _

theorem stays_separatedUnless (stop : Option Char → Bool) (separator : Char)
    (h : Stays d text r) : Stays d text (separatedUnless stop separator r) :=
  stays_next.bind fun _ => (stays_pure _).ite (stays_separated separator h)

/-- Elements between brackets. -/
theorem stays_bracketed {f : List α → β} (bracket separator : Char) (stop : Option Char → Bool)
    (h : Stays d text r) : Stays d text (do
      openBracket d.size bracket
      let xs ← separatedUnless stop separator r
      closeBracket d.size
      return f xs) :=
  (stays_openBracket _).bind fun _ =>
    (stays_separatedUnless stop separator h).bind fun _ => stays_closing _

/-! ## Names -/

theorem stays_identifier : Stays d text (identifier d.size) := by
  refine stays_skipBlanks.bind fun _ => stays_get fun s hs => Stays.ite ?_ stays_unexpected
  exact (stays_moveTo ((List.dropWhile_suffix _).trans hs.rest)).bind fun _ => stays_pure _

theorem stays_path : Stays d text (path d.size) := by
  refine stays_skipBlanks.bind fun _ => stays_get fun s hs => Stays.ite ?_ stays_unexpected
  exact (stays_moveTo ((suffix_spanPath _).trans hs.rest)).bind fun _ => stays_pure _

theorem stays_markedName {wanted : Wanted} : Stays d text (markedName d.size wanted) :=
  stays_advance.bind fun _ => stays_get fun _ _ => stays_identifier.ite stays_unexpected

end Reader

namespace Decoding

variable {d : Decoding} {text : List Char}

/-! ## Tokens -/

theorem stays_code (table : Table) : Stays d text (d.code table) := by
  refine stays_skipBlanks.bind fun _ => stays_get fun s hs => stays_markedName.ite ?_
  refine stays_identifier.bind fun short => ?_
  split
  · exact stays_pure _
  · exact stays_failAt hs.rest ⟨nofun, nofun⟩

theorem stays_propertyKey : Stays d text d.propertyKey := by
  refine stays_next.bind fun c => ?_
  split
  · exact stays_markedName.ite
      ((stays_identifier.bind fun _ => stays_pure _).ite stays_unexpected)
  · exact stays_unexpected

theorem stringFault_placed (fault : Quoted.Fault) : (stringFault fault).Placed d text := by
  cases fault <;> exact ⟨nofun, nofun⟩

theorem stays_string : Stays d text d.string := by
  refine (stays_expect _).bind fun _ => stays_get fun _ _ => (stays_expectNow _).bind fun _ => ?_
  refine stays_get fun s hs => ?_
  split
  · next hread =>
      refine (stays_moveTo ((Quoted.suffix_read hread).trans hs.rest)).bind fun _ => ?_
      exact (stays_expectNow _).bind fun _ => stays_pure _
  · next hread =>
      exact stays_failAt ((Quoted.suffix_fault hread).trans hs.rest) (stringFault_placed _)

theorem stays_number : Stays d text d.number := by
  refine stays_get fun s hs => ?_
  split
  · next hsplit =>
      have hrest := (Numeral.further_split hsplit).suffix.trans hs.rest
      exact (stays_moveTo hrest).bind fun _ => stays_pure _
  · exact stays_unexpected

theorem stays_constant : Stays d text d.constant := by
  refine stays_get fun s hs => ?_
  dsimp only
  split
  · have hrest := ((List.tail_suffix _).trans (List.tail_suffix _)).trans hs.rest
    exact (stays_moveTo hrest).bind fun _ => stays_pure _
  · exact stays_fail ⟨nofun, nofun⟩

theorem stays_foldedLiteral : Stays d text d.foldedLiteral :=
  stays_advance.bind fun _ => (stays_code _).bind fun _ => stays_pure _

theorem stays_expression : Stays d text d.expression :=
  stays_advance.bind fun _ => stays_peek.bind fun _ =>
    (stays_string.bind fun _ => stays_pure _).ite stays_unexpected

theorem stays_tooDeep {α : Type} : Stays d text (d.tooDeep (α := α)) :=
  stays_fail ⟨nofun, nofun⟩

/-! ## Types -/

theorem stays_typeRefWith {args : Reader (List TypeRef)} (h : Stays d text args) :
    Stays d text (d.typeRefWith args) :=
  (stays_code _).bind fun _ => stays_next.bind fun _ =>
    (h.bind fun _ => stays_pure _).ite (stays_pure _)

theorem stays_typeArgs {arg : Reader TypeRef} (h : Stays d text arg) :
    Stays d text (d.typeArgs arg) :=
  (stays_openBracket _).bind fun _ => (stays_separated _ h).bind fun _ => stays_closing _

theorem stays_typeRef (levels : Nat) : Stays d text (d.typeRef levels) := by
  induction levels with
  | zero => exact stays_typeRefWith stays_tooDeep
  | succ levels ih => exact stays_typeRefWith (stays_typeArgs ih)

/-! ## References -/

section

variable {value : Reader Value} {widget body : Reader Widget} {list : Reader (List Value)}

theorem stays_argument (hv : Stays d text value) : Stays d text (d.argument value) := by
  refine stays_next.bind fun c => ?_
  split
  · exact stays_pure _
  · exact stays_pure _
  · refine stays_get fun s hs => hv.bind fun v => ?_
    split
    · exact stays_pure _
    · exact stays_failAt hs.rest ⟨nofun, nofun⟩

theorem stays_arguments {arg : Reader (Option Scalar)} {tooMany : Reader (List (Option Scalar))}
    (h : Stays d text arg) (htooMany : Stays d text tooMany) (slots : Nat) :
    Stays d text (arguments arg tooMany slots) := by
  induction slots with
  | zero => exact h.bind fun _ => htooMany
  | succ slots ih =>
      refine h.bind fun _ => (stays_eat _).bind fun _ => ?_
      exact (ih.bind fun _ => stays_pure _).ite (stays_pure _)

theorem stays_callArguments (hv : Stays d text value) (entry : Entry) :
    Stays d text (d.callArguments value entry) := by
  refine stays_next.bind fun _ => (stays_pure _).ite (stays_arguments (stays_argument hv) ?_ _)
  exact stays_fail ⟨nofun, nofun⟩

/-- Here the pattern is filled, which does not fail unless it is one that cannot be filled. -/
theorem stays_referenceFrom
    (hv : Stays d text value) {start : List Char} (hstart : start <:+ text) :
    Stays d text (d.referenceFrom value start) := by
  refine stays_get fun s hs => ?_
  have hbehind : s.rest.dropWhile isReferenceChar <:+ text :=
    (List.dropWhile_suffix _).trans hs.rest
  refine (stays_moveTo hbehind).bind fun _ => stays_unexpected.ite ?_
  split
  · exact stays_failAt hstart ⟨nofun, nofun⟩
  · next hget =>
      refine (stays_openBracket _).bind fun _ => (stays_callArguments hv _).bind fun args => ?_
      refine stays_closeBracket.bind fun _ => ?_
      split
      · exact stays_pure _
      · next hfill =>
          exact stays_failAt hstart ⟨nofun, fun _ _ hd => absurd hfill (hd hget args)⟩

theorem stays_reference (hv : Stays d text value) : Stays d text (d.reference value) :=
  stays_get fun _ hs => stays_advance.bind fun _ => stays_referenceFrom hv hs.rest

/-! ## Widgets and values -/

theorem stays_property (hv : Stays d text value) : Stays d text (d.property value) :=
  (stays_expectNow _).bind fun _ => stays_propertyKey.bind fun _ => (stays_expect _).bind fun _ =>
    (stays_expectNow _).bind fun _ => hv.bind fun _ =>
      (stays_expectNow _).bind fun _ => stays_pure _

theorem stays_properties (hv : Stays d text value) : Stays d text (d.properties value) :=
  (stays_openBracket _).bind fun _ => (stays_expectNow _).bind fun _ =>
    (stays_separatedUnless _ _ (stays_property hv)).bind fun _ => stays_closing _

theorem stays_child (hw : Stays d text widget) : Stays d text (child widget) :=
  hw.bind fun _ => (stays_expectNow _).bind fun _ => stays_pure _

theorem stays_children (hw : Stays d text widget) : Stays d text (d.children widget) :=
  (stays_openBracket _).bind fun _ => (stays_expectNow _).bind fun _ =>
    (stays_separatedUnless _ _ (stays_child hw)).bind fun _ => stays_closing _

theorem stays_fullWidget (hv : Stays d text value) (hw : Stays d text widget) :
    Stays d text (d.fullWidget value widget) := by
  refine (stays_code _).bind fun t => stays_next.bind fun c => ?_
  have hbehind (ps : List Property) : Stays d text (do
      let ws ← if (← next) = some '[' then d.children widget else pure []
      return (⟨t, ps, ws⟩ : Widget)) :=
    stays_next.bind fun _ =>
      ((stays_children hw).bind fun _ => stays_pure _).ite (stays_pure _)
  exact ((stays_properties hv).bind hbehind).ite ((stays_pure _).bind hbehind)

theorem stays_widgetBody (hv : Stays d text value) (hw : Stays d text widget) :
    Stays d text (d.widgetBody value widget) :=
  stays_peek.bind fun _ => (stays_reference hv).ite (stays_fullWidget hv hw)

theorem stays_widgetWith (hb : Stays d text body) : Stays d text (d.widgetWith body) := by
  refine (stays_expectNow _).bind fun _ => stays_next.bind fun c => ?_
  split
  · exact hb.ite stays_unexpected
  · exact stays_unexpected

theorem stays_list (hv : Stays d text value) : Stays d text (d.list value) :=
  stays_bracketed (f := id) '[' ',' _ hv

/-- Going back in front of the name leads to a place that was reached before. -/
theorem stays_nameOrWidget (hw : Stays d text widget) : Stays d text (d.nameOrWidget widget) := by
  refine stays_get fun s hs => stays_path.bind fun name => stays_next.bind fun c => ?_
  have hback : Stays d text (do
      moveTo s.rest
      let w ← widget
      return Value.widget w) :=
    (stays_moveTo hs.rest).bind fun _ => hw.bind fun _ => stays_pure _
  split
  · exact hback
  · exact hback
  · exact stays_pure _

theorem stays_valueWith (hl : Stays d text list) (hw : Stays d text widget) :
    Stays d text (d.valueWith list widget) := by
  refine stays_next.bind fun c => ?_
  split
  · exact stays_string.bind fun _ => stays_pure _
  · exact stays_constant.bind fun _ => stays_pure _
  · exact stays_foldedLiteral.bind fun _ => stays_pure _
  · exact stays_expression.bind fun _ => stays_pure _
  · exact hl.bind fun _ => stays_pure _
  · exact hw.bind fun _ => stays_pure _
  · exact hw.bind fun _ => stays_pure _
  · exact (stays_number.bind fun _ => stays_pure _).ite
      ((stays_nameOrWidget hw).ite stays_unexpected)
  · exact stays_unexpected

theorem stays_value_widget (levels : Nat) :
    Stays d text (d.value levels) ∧ Stays d text (d.widget levels) := by
  induction levels with
  | zero =>
      have hwidget : Stays d text (d.widget 0) := stays_widgetWith stays_tooDeep
      exact ⟨stays_valueWith stays_tooDeep hwidget, hwidget⟩
  | succ levels ih =>
      obtain ⟨hvalue, hwidget⟩ := ih
      rw [value_succ, widget_succ]
      have hbody : Stays d text (d.widgetWith (d.widgetBody (d.value levels) (d.widget levels))) :=
        stays_widgetWith (stays_widgetBody hvalue hwidget)
      exact ⟨stays_valueWith (stays_list hvalue) hbody, hbody⟩

theorem stays_value (levels : Nat) : Stays d text (d.value levels) :=
  (stays_value_widget levels).1

theorem stays_widget (levels : Nat) : Stays d text (d.widget levels) :=
  (stays_value_widget levels).2

end

/-! ## Declarations -/

theorem stays_modifier : Stays d text d.modifier :=
  stays_advance.bind fun _ => (stays_code _).bind fun _ => stays_peek.bind fun _ =>
    (stays_advance.bind fun _ => stays_pure _).ite stays_unexpected

theorem stays_modifiersLoop (fuel : Nat) : Stays d text (d.modifiersLoop fuel) := by
  induction fuel with
  | zero => exact stays_pure _
  | succ fuel ih =>
      refine stays_next.bind fun _ => Stays.ite ?_ (stays_pure _)
      exact stays_modifier.bind fun _ => ih.bind fun _ => stays_pure _

theorem stays_modifiers : Stays d text d.modifiers :=
  stays_get fun _ _ => stays_modifiersLoop _

theorem stays_declaredType : Stays d text d.declaredType :=
  (stays_eat _).bind fun _ => ((stays_typeRef _).bind fun _ => stays_pure _).ite (stays_pure _)

theorem stays_initializer : Stays d text d.initializer :=
  (stays_eat _).bind fun _ => ((stays_value _).bind fun _ => stays_pure _).ite (stays_pure _)

theorem stays_superType : Stays d text d.superType := by
  refine stays_next.bind fun _ => Stays.ite ?_ (stays_pure _)
  exact (stays_openBracket _).bind fun _ => (stays_typeRef _).bind fun _ => stays_closing _

theorem stays_param : Stays d text d.param :=
  stays_identifier.bind fun _ => stays_declaredType.bind fun _ => stays_pure _

theorem stays_params : Stays d text d.params :=
  stays_bracketed (f := id) '(' ',' _ stays_param

theorem stays_field : Stays d text d.field :=
  stays_modifiers.bind fun _ => stays_identifier.bind fun _ =>
    stays_declaredType.bind fun _ => stays_initializer.bind fun _ => stays_pure _

theorem stays_statementValue : Stays d text d.statementValue := by
  refine stays_next.bind fun c => ?_
  split
  · exact stays_pure _
  · exact stays_pure _
  · exact (stays_value _).bind fun _ => stays_pure _

theorem stays_statement : Stays d text d.statement := by
  refine stays_modifiers.bind fun _ => stays_statementValue.bind fun _ =>
    Stays.ite ?_ (stays_pure _)
  exact stays_fail ⟨nofun, nofun⟩

theorem stays_statements : Stays d text d.statements :=
  stays_bracketed (f := id) '{' ';' _ stays_statement

theorem stays_methodBody : Stays d text d.methodBody := by
  refine stays_next.bind fun c => ?_
  split
  · exact stays_advance.bind fun _ => (stays_widget _).bind fun _ => stays_pure _
  · exact stays_statements.bind fun _ => stays_pure _
  · exact stays_unexpected

theorem stays_method : Stays d text d.method :=
  stays_modifiers.bind fun _ => stays_identifier.bind fun _ => stays_params.bind fun _ =>
    stays_declaredType.bind fun _ => stays_methodBody.bind fun _ => stays_pure _

theorem stays_classDecl : Stays d text d.classDecl :=
  stays_identifier.bind fun _ => stays_superType.bind fun _ => (stays_expect _).bind fun _ =>
    (stays_separatedUnless _ ',' stays_field).bind fun _ => (stays_expect _).bind fun _ =>
      (stays_separatedUnless _ ',' stays_method).bind fun _ => stays_pure _

/-! ## Documents -/

theorem stays_declarationHeader : Stays d text d.declarationHeader :=
  stays_identifier.bind fun _ => stays_expect _

theorem stays_plainItem : Stays d text d.plainItem := by
  refine stays_next.bind fun c => Stays.ite ?_ ((stays_widget _).bind fun _ => stays_pure _)
  refine (stays_value _).bind fun v => ?_
  split
  · exact stays_pure _
  · exact stays_fail ⟨nofun, nofun⟩

theorem stays_item : Stays d text d.item := by
  refine (stays_expectNow _).bind fun _ => stays_get fun s _ => ?_
  split
  · exact stays_declarationHeader.bind fun _ => stays_classDecl.bind fun _ => stays_pure _
  · exact stays_declarationHeader.bind fun _ => stays_method.bind fun _ => stays_pure _
  · exact stays_fail ⟨nofun, nofun⟩
  · exact stays_fail ⟨nofun, nofun⟩
  · exact stays_plainItem

theorem stays_root : Stays d text d.root := by
  refine stays_get fun _ _ => Stays.ite ?_ stays_item
  exact stays_declarationHeader.bind fun _ =>
    (stays_separated '|' stays_item).bind fun _ => stays_pure _

theorem stays_document : Stays d text d.document :=
  stays_next.bind fun _ => (stays_pure _).ite
    (stays_root.bind fun _ => stays_next.bind fun _ => stays_unexpected.ite (stays_pure _))

end Decoding

/-! ## Whole texts -/

/-- The decoder in the reading of a text. -/
def Decoder.reading (d : Decoder) (text : String) : Decoding :=
  { d with size := byteLength text.toList }

/-- The cursor in front of a whole text. -/
def Cursor.atStart (text : String) : Cursor :=
  ⟨text.toList, [], .node⟩

theorem Cursor.within_atStart (text : String) : (Cursor.atStart text).Within text.toList :=
  ⟨List.suffix_refl _, nofun⟩

/-- A text that is no document is refused for something at places in it. -/
theorem Decoder.placed {d : Decoder} {text : String} {error : ParseError}
    (h : d.decode text = .error error) : error.Placed (d.reading text) text.toList := by
  have hrun : (d.reading text).document (.atStart text) = .error error := map_eq_error.mp h
  have hstays := Decoding.stays_document (d := d.reading text) _ (Cursor.within_atStart text)
  rw [hrun] at hstays
  exact hstays

/-- When the patterns can be filled, none of the faults is about a slot. -/
theorem Decoder.located
    {d : Decoder} (hd : Decoding.Fillable d) {text : String} {error : ParseError}
    (h : d.decode text = .error error) :
    Located (byteLength text.toList) text.toList error :=
  ⟨(Decoder.placed h).place, fun id hslot => (Decoder.placed h).fault.slot id hslot hd⟩

end WidgetShorthand
