import WidgetShorthand.Proofs.CutTokens

/-!
# Values of a cut text

Types, references, widgets and values, each in a whole text and in what is left of it. Mostly this
is a composition of what is known of the parts. Two forms look at what they have read: the arguments
of a reference have to be scalars, and a name is a widget if a bracket follows. A cut makes no
widget or list of a scalar (`KeepsScalars`), and it cannot add a bracket.
-/

namespace WidgetShorthand

open Text Reader

namespace Decoding

variable {d : Decoding} {left lost : List Char} {size : Nat} {P : Cursor → Prop}

theorem lockstep_tooDeep {α : Type} {c : Char} (hc : c ≠ '.') :
    Lockstep left lost (At c) (d.tooDeep (α := α)) (d.resized size).tooDeep :=
  lockstep_of_fails (fun _ _ => nofun) (halts_at hc _)

/-! ## Types -/

theorem lockstep_typeRefWith {args args' : Reader (List TypeRef)}
    (h : Lockstep left lost (At '<') args args') :
    Lockstep left lost P (d.typeRefWith args) ((d.resized size).typeRefWith args') :=
  (lockstep_code d.symbols.types).then fun _ => lockstep_next_then fun _ =>
    (h.then fun _ => lockstep_pure _).iteChar (lockstep_pure _)

theorem lockstep_typeArgs {arg arg' : Reader TypeRef} (h : Lockstep left lost Anywhere arg arg')
    (hpasses : Passes 0 arg') :
    Lockstep left lost P (d.typeArgs arg) ((d.resized size).typeArgs arg') :=
  lockstep_between (by decide) (lockstep_separated kept_anywhere h hpasses (by decide))
    fun _ => (lockstep_pure _).follows

theorem lockstep_typeRef (levels : Nat) :
    Lockstep left lost P (d.typeRef levels) ((d.resized size).typeRef levels) := by
  induction levels generalizing P with
  | zero => exact lockstep_typeRefWith (lockstep_tooDeep (by decide))
  | succ levels ih =>
      exact lockstep_typeRefWith (lockstep_typeArgs ih (passes_typeRef levels).onward)

section

variable {value value' : Reader Value} {widget widget' body body' : Reader Widget}
  {list list' : Reader (List Value)}

/-! ## References -/

/-- The reader fails where it is stuck. -/
def FailsStuck {α : Type} (r : Reader α) : Prop :=
  ∀ ⦃t⦄, Stuck t.rest → ∃ error, r t = .error error

theorem FailsStuck.bind {α β : Type} {r : Reader α} {f : α → Reader β} (h : FailsStuck r) :
    FailsStuck (r >>= f) := by
  intro t hstuck
  obtain ⟨error, herror⟩ := h hstuck
  exact ⟨error, run_bind_of_error herror⟩

/-- What comes behind a failure does not matter. -/
theorem halts_bind_of_fails {α β : Type} {r : Reader α} {f : α → Reader β}
    (h : Halts left lost P r) (hfails : FailsStuck r) : Halts left lost P (r >>= f) := by
  intro t hP ht hstuck
  obtain ⟨error, herror⟩ := hfails hstuck
  have hout := h hP ht hstuck
  rw [herror] at hout
  rw [run_bind_of_error herror]
  exact hout

/-- Where the answer for the whole text is a scalar, the answer for what is left is a scalar too. -/
def KeepsScalars (left lost : List Char) (P : Cursor → Prop) (r r' : Reader Value) : Prop :=
  ∀ ⦃t⦄, P t → Fits left t → ∀ ⦃x s₁ v t₁⦄, r (t.restored lost) = .ok (.scalar x, s₁) →
    r' t = .ok (v, t₁) → ∃ y, v = .scalar y

/-- The readers of values, with what arguments need of them. -/
structure LockstepValues (left lost : List Char) (value value' : Reader Value) : Prop where
  lockstep : Lockstep left lost Anywhere value value'
  fails : FailsStuck value'
  scalar : KeepsScalars left lost Anywhere value value'

/-- An argument that is written. -/
def scalarFrom (d : Decoding) (start : List Char) : Value → Reader (Option Scalar)
  | .scalar s => pure (some s)
  | _ => failAt d.size start .argumentNotScalar

theorem lockstep_scalarArgument (h : LockstepValues left lost value value')
    (start start' : List Char) :
    Lockstep left lost P (value >>= d.scalarFrom start)
      (value' >>= (d.resized size).scalarFrom start') where
  follows t _ ht x s' hr := by
    obtain ⟨v, s₁, hv, hr⟩ := run_bind_eq_ok.mp hr
    cases v with
    | widget w => cases hr
    | list vs => cases hr
    | scalar s =>
        refine (h.lockstep.follows trivial ht hv).bind (Q := fun v _ => ∃ y, v = .scalar y)
          (fun _ _ hv' _ => h.scalar trivial ht hv hv') (fun v => ?_) hr
        cases v with
        | widget w => exact lockstep_of_false nofun
        | list vs => exact lockstep_of_false nofun
        | scalar s => exact lockstep_pure (some s)
  halts := halts_bind_of_fails h.lockstep.at.halts h.fails

theorem lockstep_argument (h : LockstepValues left lost value value') :
    Lockstep left lost P (d.argument value) ((d.resized size).argument value') := by
  refine lockstep_next_then fun c => ?_
  have hscalar (c : Option Char) : Lockstep left lost (Ahead c)
      (get >>= fun s => value >>= d.scalarFrom s.rest)
      (get >>= fun s => value' >>= (d.resized size).scalarFrom s.rest) :=
    lockstep_look fun s t => lockstep_scalarArgument h s.rest t.rest
  split
  · exact lockstep_pure none
  · exact lockstep_pure none
  · exact hscalar _

theorem fails_argument (h : FailsStuck value') : FailsStuck (d.argument value') := by
  intro t hstuck
  obtain ⟨rest, opened, expecting⟩ := t
  rcases hstuck with rfl | rfl
  · exact h.bind (f := d.scalarFrom []) (t := ⟨[], opened, expecting⟩) (.inl rfl)
  · exact h.bind (f := d.scalarFrom ['.']) (t := ⟨['.'], opened, expecting⟩) (.inr rfl)

theorem lockstep_arguments {arg arg' : Reader (Option Scalar)}
    {tooMany tooMany' : Reader (List (Option Scalar))} (h : Lockstep left lost Anywhere arg arg')
    (hfails : FailsStuck arg') (htooMany : ∀ s q, tooMany s ≠ .ok q) (slots : Nat) :
    Lockstep left lost P (arguments arg tooMany slots) (arguments arg' tooMany' slots) := by
  induction slots generalizing P with
  | zero =>
      refine lockstep_of_fails (fun s q hr => ?_) (halts_bind_of_fails h.at.halts hfails)
      obtain ⟨_, s₁, -, hr⟩ := run_bind_eq_ok.mp hr
      exact htooMany s₁ q hr
  | succ slots ih =>
      exact h.at.then fun _ => (lockstep_eat (by decide)).then fun _ =>
        (ih.then fun _ => lockstep_pure _).ite (lockstep_pure _)

theorem lockstep_callArguments (h : LockstepValues left lost value value') (entry : Entry) :
    Lockstep left lost P (d.callArguments value entry)
      ((d.resized size).callArguments value' entry) := by
  have htooMany (s : Cursor) (q : List (Option Scalar) × Cursor) :
      fail d.size (.tooManyArguments entry.id entry.arity) s ≠ .ok q := nofun
  exact lockstep_next_then fun _ => (lockstep_pure []).ite
    (lockstep_arguments (lockstep_argument h) (fails_argument h.fails) htooMany _)

/-- The rest of a reference, once its pattern is known. -/
def callOf (d : Decoding) (value : Reader Value) (start : List Char) (entry : Entry) :
    Reader Widget := do
  openBracket d.size '('
  let args ← d.callArguments value entry
  closeBracket d.size
  match fill entry args with
  | some w => return w
  | none => failAt d.size start (.unresolvedSlot entry.id)

theorem lockstep_callOf (h : LockstepValues left lost value value') (start start' : List Char)
    (entry : Entry) :
    Lockstep left lost P (d.callOf value start entry)
      ((d.resized size).callOf value' start' entry) := by
  refine lockstep_between (by decide) (lockstep_callArguments h entry) fun args => ?_
  cases fill entry args with
  | some w => exact (lockstep_pure w).follows
  | none =>
      intro t _ _ x s' hr
      cases hr

theorem referenceFrom_eq (start : List Char) (t : Cursor) : d.referenceFrom value start t =
    (if (t.rest.takeWhile isReferenceChar).isEmpty then unexpected d.size .referenceId
      else match d.registry.get? (String.ofList (t.rest.takeWhile isReferenceChar)) with
        | none => failAt d.size start
          (.unknownReference (String.ofList (t.rest.takeWhile isReferenceChar)))
        | some entry => d.callOf value start entry : Reader Widget)
      { t with rest := t.rest.dropWhile isReferenceChar } :=
  rfl

theorem scanned_reference {u o : List Char} (hs : Scanned left u ⟨.sigil, o⟩)
    (hne : u.takeWhile isReferenceChar ≠ []) :
    Scanned left (u.dropWhile isReferenceChar) ⟨.reference, o⟩ := by
  rw [← List.takeWhile_append_dropWhile (p := isReferenceChar) (l := u)] at hs
  have hrun := hs.run
  rwa [Scan.run_reference (fun c hc => List.mem_takeWhile_imp hc) hne] at hrun

/-- The pattern of a reference that is read to its end. -/
theorem exists_entry_of_referenceFrom {start : List Char} {t : Cursor} {q : Widget × Cursor}
    (h : d.referenceFrom value start t = .ok q) :
    ∃ entry, d.registry.get? (String.ofList (t.rest.takeWhile isReferenceChar)) = some entry ∧
      t.rest.takeWhile isReferenceChar ≠ [] ∧
      d.callOf value start entry { t with rest := t.rest.dropWhile isReferenceChar } = .ok q := by
  rw [referenceFrom_eq] at h
  split at h
  · exact absurd h (unexpected_ne_ok _ _)
  · next hempty =>
      cases hentry : d.registry.get? (String.ofList (t.rest.takeWhile isReferenceChar)) with
      | none =>
          rw [hentry] at h
          cases h
      | some entry =>
          rw [hentry] at h
          exact ⟨entry, rfl, by simpa using hempty, h⟩

theorem referenceFrom_of_entry {start : List Char} {t : Cursor} {entry : Entry}
    (hentry : d.registry.get? (String.ofList (t.rest.takeWhile isReferenceChar)) = some entry)
    (hne : t.rest.takeWhile isReferenceChar ≠ []) : d.referenceFrom value start t =
      d.callOf value start entry { t with rest := t.rest.dropWhile isReferenceChar } := by
  rw [referenceFrom_eq, if_neg (by simpa using hne), hentry]

/-- A reference whose id goes up to the cut. What is left of the id may be the id of another
pattern, but then the bracket behind it is missing. -/
theorem reference_cut {t : Cursor} {u start : List Char} {entry : Entry}
    (hs : Scanned left u ⟨.sigil, t.brackets⟩) (hmark : '@' :: u <:+ left)
    (hall : u.dropWhile isReferenceChar = [])
    (hentry : d.registry.get? (String.ofList ((u ++ lost).takeWhile isReferenceChar)) =
      some entry) :
    ∃ error, (d.resized size).referenceFrom value' start { t with rest := u } = .error error ∧
      Explained left lost error := by
  have htake := takeWhile_of_dropWhile_eq_nil hall
  rw [referenceFrom_eq]
  dsimp only
  rw [htake, hall]
  cases u with
  | nil => exact ⟨_, rfl, explained_of_end (t := { t with rest := [] }) hs rfl rfl size _ _⟩
  | cons c u =>
      have hs' := scanned_reference hs (by rw [htake]; exact List.cons_ne_nil c u)
      rw [hall] at hs'
      rw [if_neg (by simp), show (d.resized size).registry = d.registry from rfl]
      cases hleft : d.registry.get? (String.ofList (c :: u)) with
      | none =>
          refine ⟨_, rfl, fun _ => ?_⟩
          rw [CutFault, hs'.at_end]
          refine .inr (.reference _ (by rwa [String.toList_ofList]) ?_)
          refine starts_of_takeWhile_ne hall fun heq => ?_
          rw [heq, hleft] at hentry
          cases hentry
      | some other =>
          have hopen : openBracket size '(' { t with rest := [] } = _ :=
            openBracket_of_ne
              (show (dropBlanks []).head? ≠ some '(' from (Option.some_ne_none _).symm)
          refine ⟨_, run_bind_of_error hopen, ?_⟩
          exact explained_of_end (t := { t with rest := [] }) hs' rfl rfl size _ _

theorem lockstep_reference (h : LockstepValues left lost value value') :
    Lockstep left lost (At '@') (d.reference value) ((d.resized size).reference value') where
  follows t hat ht w s' hr := by
    obtain ⟨u, hu⟩ := List.head?_eq_some_iff.mp hat
    have hrun (d : Decoding) (value : Reader Value) (s : Cursor) : d.reference value s =
        d.referenceFrom value s.rest { s with rest := s.rest.tail } := rfl
    have hs : Scanned left u ⟨.sigil, t.brackets⟩ := ht.passed (u := []) hu
    rw [hrun, Cursor.restored, hu, List.cons_append, List.tail_cons] at hr
    rw [hrun, hu, List.tail_cons]
    obtain ⟨entry, hentry, hne, hcall⟩ := exists_entry_of_referenceFrom hr
    by_cases hall : u.dropWhile isReferenceChar = []
    · have hmark : '@' :: u <:+ left := by
        obtain ⟨e, hs, -⟩ := ht.scanned
        exact hu ▸ hs.suffix
      obtain ⟨error, herror, hcut⟩ : ∃ error, (d.resized size).referenceFrom value' ('@' :: u)
          { t with rest := u } = .error error ∧ Explained left lost error :=
        reference_cut hs hmark hall hentry
      rw [herror]
      exact hcut
    · dsimp only at hentry hne hcall
      rw [takeWhile_append_of_ne hall] at hentry hne
      rw [dropWhile_append_of_ne hall] at hcall
      have hs' := scanned_reference hs hne
      have hfits : Fits left { t with rest := u.dropWhile isReferenceChar } := by
        refine ⟨.reference, hs', rfl, fun c r hc => ?_⟩
        show (if isReferenceChar c = true then _ else _) = _
        rw [eq_false_of_dropWhile hc, if_neg Bool.false_ne_true]
      rw [referenceFrom_of_entry (d := d.resized size) (t := { t with rest := u }) hentry hne]
      have hcallOf : Lockstep left lost Anywhere (d.callOf value ('@' :: (u ++ lost)) entry)
          ((d.resized size).callOf value' ('@' :: u) entry) := lockstep_callOf h _ _ entry
      exact (hcallOf.follows trivial hfits hcall).before rfl
  halts := halts_at (by decide) _

/-! ## Widgets and values -/

theorem lockstep_property (hv : Lockstep left lost Anywhere value value') :
    Lockstep left lost P (d.property value) ((d.resized size).property value') :=
  (lockstep_expectNow _).then fun _ => lockstep_propertyKey.then fun _ =>
    (lockstep_expect _ _ (by decide)).then fun _ => (lockstep_expectNow _).then fun _ =>
      hv.then fun _ => (lockstep_expectNow _).then fun _ => lockstep_pure _

theorem lockstep_properties (hv : Lockstep left lost Anywhere value value')
    (hpasses : Passes 0 value') :
    Lockstep left lost P (d.properties value) ((d.resized size).properties value') := by
  have hinner : Lockstep left lost Anywhere
      (do
        expectNow .propertyKeyOrClose
        separatedUnless (· == some '}') ',' (d.property value))
      (do
        expectNow .propertyKeyOrClose
        separatedUnless (· == some '}') ',' ((d.resized size).property value')) :=
    (lockstep_expectNow _).then fun _ =>
      lockstep_separatedUnless _ (lockstep_property hv) (passes_property hpasses).onward (by decide)
  exact lockstep_between (by decide) hinner fun _ => (lockstep_pure _).follows

theorem lockstep_children (hw : Lockstep left lost Anywhere widget widget')
    (hpasses : Passes 0 widget') :
    Lockstep left lost P (d.children widget) ((d.resized size).children widget') := by
  have hchild : Lockstep left lost Anywhere (child widget) (child widget') :=
    hw.then fun _ => (lockstep_expectNow _).then fun _ => lockstep_pure _
  have hinner : Lockstep left lost Anywhere
      (do
        expectNow .childOrClose
        separatedUnless (· == some ']') ',' (child widget))
      (do
        expectNow .childOrClose
        separatedUnless (· == some ']') ',' (child widget')) :=
    (lockstep_expectNow _).then fun _ =>
      lockstep_separatedUnless _ hchild (passes_child hpasses) (by decide)
  exact lockstep_between (by decide) hinner fun _ => (lockstep_pure _).follows

theorem lockstep_fullWidget (hv : Lockstep left lost Anywhere value value')
    (hw : Lockstep left lost Anywhere widget widget') (hpv : Passes 0 value')
    (hpw : Passes 0 widget') :
    Lockstep left lost P (d.fullWidget value widget)
      ((d.resized size).fullWidget value' widget') := by
  refine (lockstep_code d.symbols.types).then fun typeName => lockstep_next_then fun c => ?_
  have hbehind (Q : Cursor → Prop) (ps : List Property) : Lockstep left lost Q
      (do
        let ws ← if (← next) = some '[' then d.children widget else pure []
        return (⟨typeName, ps, ws⟩ : Widget))
      (do
        let ws ← if (← next) = some '[' then (d.resized size).children widget' else pure []
        return (⟨typeName, ps, ws⟩ : Widget)) :=
    lockstep_next_then fun _ =>
      ((lockstep_children hw hpw).then fun _ => lockstep_pure _).ite (lockstep_pure _)
  exact ((lockstep_properties hv hpv).then (hbehind _)).ite
    ((lockstep_pure []).then (hbehind _))

theorem lockstep_widgetBody (hv : LockstepValues left lost value value')
    (hw : Lockstep left lost Anywhere widget widget') (hpv : Passes 0 value')
    (hpw : Passes 0 widget') {c : Char} :
    Lockstep left lost (At c) (d.widgetBody value widget)
      ((d.resized size).widgetBody value' widget') :=
  lockstep_peek_then ((lockstep_reference hv).iteChar (lockstep_fullWidget hv.lockstep hw hpv hpw))

/-- Where a widget is expected, something else than its first character is found at once. -/
theorem lockstep_widgetWith (hb : ∀ c, c ≠ '.' → Lockstep left lost (At c) body body') :
    Lockstep left lost P (d.widgetWith body) ((d.resized size).widgetWith body') := by
  refine (lockstep_expectNow _).then fun _ => lockstep_next_then fun c => ?_
  cases c with
  | none => exact lockstep_unexpected _ _ _
  | some c =>
      show Lockstep left lost (At c) (if _ then _ else _) (if _ then _ else _)
      split
      · next hc =>
          refine hb c ?_
          rintro rfl
          exact absurd hc (by decide)
      · exact lockstep_unexpected _ _ _

theorem lockstep_list (hv : Lockstep left lost Anywhere value value') (hpasses : Passes 0 value') :
    Lockstep left lost P (d.list value) ((d.resized size).list value') :=
  lockstep_between (by decide) (lockstep_separatedUnless _ hv hpasses (by decide))
    fun _ => (lockstep_pure _).follows

/-- The widget whose type the name turns out to be. -/
def widgetFrom (start : List Char) (widget : Reader Widget) : Reader Value := do
  moveTo start
  let w ← widget
  return .widget w

/-- The cursor goes back in front of the name, where it has been before. -/
theorem lockstep_widgetFrom {t₀ : Cursor} {c : Char} (hc : c ≠ '.') (ht₀ : Fits left t₀)
    (hw : Lockstep left lost Anywhere widget widget') :
    Lockstep left lost (fun t => t.opened = t₀.opened ∧ At c t)
      (widgetFrom (t₀.rest ++ lost) widget) (widgetFrom t₀.rest widget') where
  follows t hat ht x s' hr := by
    have hfits : Fits left { t with rest := t₀.rest } := ht₀.congr rfl hat.1
    have hwidget : Lockstep left lost Anywhere (widget >>= fun w => pure (Value.widget w))
        (widget' >>= fun w => pure (Value.widget w)) := hw.then fun _ => lockstep_pure _
    have hout := hwidget.follows trivial hfits hr
    exact hout.before rfl
  halts t hat := halts_at hc _ hat.2

theorem lockstep_nameOrWidget (hw : Lockstep left lost Anywhere widget widget') {c : Char}
    (hc : isNameStart c = true) :
    Lockstep left lost (At c) (d.nameOrWidget widget) ((d.resized size).nameOrWidget widget') := by
  refine lockstep_get fun t₀ hat ht₀ => ?_
  have hpath : Lockstep left lost (fun t => t = t₀) (path d.size) (path size) :=
    (lockstep_path hc).mono fun t ht => ht ▸ hat
  refine hpath.bind (Q := fun _ t => t.opened = t₀.opened)
    (fun t _ _ ht _ ho => ho.trans (ht ▸ rfl))
    fun name => ?_
  refine lockstep_next.bind (Q := fun c t => t.opened = t₀.opened ∧ Ahead c t)
    (fun t _ _ ht h ho => ⟨ho.trans ht, ahead_of_next h⟩) fun c => ?_
  split
  · exact lockstep_widgetFrom (by decide) ht₀ hw
  · exact lockstep_widgetFrom (by decide) ht₀ hw
  · exact lockstep_pure _

theorem lockstep_valueWith (hl : Lockstep left lost (At '[') list list')
    (hw : Lockstep left lost Anywhere widget widget') :
    Lockstep left lost P (d.valueWith list widget) ((d.resized size).valueWith list' widget') := by
  refine lockstep_next_then fun c => ?_
  split
  · exact lockstep_string.then fun _ => lockstep_pure _
  · exact lockstep_constant.then fun _ => lockstep_pure _
  · exact lockstep_foldedLiteral.then fun _ => lockstep_pure _
  · exact lockstep_expression.then fun _ => lockstep_pure _
  · exact hl.then fun _ => lockstep_pure _
  · exact hw.at.then fun _ => lockstep_pure _
  · exact hw.at.then fun _ => lockstep_pure _
  · next c _ _ _ _ _ _ _ =>
      show Lockstep left lost (At c) (if _ then _ else _) (if _ then _ else _)
      split
      · next hnumber => exact (lockstep_number hnumber).then fun _ => lockstep_pure _
      · split
        · next hname => exact lockstep_nameOrWidget hw hname
        · exact lockstep_unexpected _ _ _
  · exact lockstep_unexpected _ _ _

theorem fails_valueWith : FailsStuck (d.valueWith list widget) := by
  intro t hstuck
  obtain ⟨rest, opened, expecting⟩ := t
  rcases hstuck with rfl | rfl
  · exact ⟨_, rfl⟩
  · exact ⟨_, rfl⟩

/-! ### Scalars stay scalars -/

theorem keepsScalars_of_scalar {α : Type} {r : Reader Value} {r' : Reader α} {g : α → Scalar} :
    KeepsScalars left lost P r (r' >>= fun x => pure (.scalar (g x))) := by
  intro t _ _ x s₁ v t₁ _ h'
  obtain ⟨x, t₂, -, hv⟩ := run_bind_eq_ok.mp h'
  cases hv
  exact ⟨g x, rfl⟩

theorem keepsScalars_of_list {r : Reader (List Value)} {r' : Reader Value} :
    KeepsScalars left lost P (r >>= fun vs => pure (.list vs)) r' :=
  fun _ _ _ x s₁ _ _ h => absurd h (list_ne_ok_scalar _ s₁ x)

theorem keepsScalars_of_widget {r : Reader Widget} {r' : Reader Value} :
    KeepsScalars left lost P (r >>= fun w => pure (.widget w)) r' :=
  fun _ _ _ x s₁ _ _ h => absurd h (widget_ne_ok_scalar _ s₁ x)

theorem keepsScalars_unexpected {n : Nat} {wanted : Wanted} {r : Reader Value} :
    KeepsScalars left lost P r (unexpected n wanted) :=
  fun _ _ _ _ _ _ _ _ h' => absurd h' (unexpected_ne_ok _ _)

theorem KeepsScalars.ite {c : Prop} [Decidable c] {a a' b b' : Reader Value}
    (ha : c → KeepsScalars left lost P a a') (hb : ¬c → KeepsScalars left lost P b b') :
    KeepsScalars left lost P (if c then a else b) (if c then a' else b') := by
  split
  · next hc => exact ha hc
  · next hc => exact hb hc

theorem keepsScalars_next {f f' : Option Char → Reader Value}
    (hf : ∀ c, KeepsScalars left lost (At c) (f (some c)) (f' (some c)))
    (hend : ∀ s q, f' none s ≠ .ok q) :
    KeepsScalars left lost P (next >>= f) (next >>= f') := by
  intro t _ ht x s₁ v t₁ h h'
  obtain ⟨_, _, hnext, h⟩ := run_bind_eq_ok.mp h
  obtain ⟨_, _, hnext', h'⟩ := run_bind_eq_ok.mp h'
  cases hnext
  cases hnext'
  have ht₀ := ht.dropBlanks
  cases hb : dropBlanks t.rest with
  | nil =>
      rw [hb] at h'
      exact absurd h' (hend _ _)
  | cons c u =>
      rw [Cursor.rest_restored, dropBlanks_append_of_cons hb] at h
      rw [hb] at h' ht₀
      exact hf c (t := { t with rest := c :: u }) rfl ht₀ h h'

/-- If a bracket follows the name that is left, it follows the name in the whole text. -/
theorem bracket_of_path {c bracket : Char} (hc : isNameStart c = true) (hbracket : bracket ≠ '.')
    {t t₁ s₁ : Cursor} {name name' : String} (hat : At c t) (ht : Fits left t)
    (hpath : path d.size (t.restored lost) = .ok (name, s₁))
    (hpath' : path size t = .ok (name', t₁)) (h : (dropBlanks t₁.rest).head? = some bracket) :
    (dropBlanks s₁.rest).head? = some bracket := by
  have hout : Outcome left lost t name s₁ (path size t) :=
    (lockstep_path hc).follows hat ht hpath
  rw [hpath'] at hout
  obtain ⟨-, -, ⟨-, rfl⟩ | hstuck⟩ := hout
  · obtain ⟨u, hu⟩ := List.head?_eq_some_iff.mp h
    rw [Cursor.rest_restored, dropBlanks_append_of_cons hu]
    rfl
  · exact absurd h (head?_ne_of_stuck hstuck hbracket)

theorem keepsScalars_nameOrWidget {c : Char} (hc : isNameStart c = true) :
    KeepsScalars left lost (At c) (d.nameOrWidget widget)
      ((d.resized size).nameOrWidget widget') := by
  intro t hat ht x s₁ v t₁ h h'
  obtain ⟨_, _, hget, h⟩ := run_bind_eq_ok.mp h
  obtain ⟨_, _, hget', h'⟩ := run_bind_eq_ok.mp h'
  cases hget
  cases hget'
  obtain ⟨name, s₂, hpath, h⟩ := run_bind_eq_ok.mp h
  obtain ⟨name', t₂, hpath', h'⟩ := run_bind_eq_ok.mp h'
  obtain ⟨c₁, s₃, hnext, h⟩ := run_bind_eq_ok.mp h
  obtain ⟨c₂, t₃, hnext', h'⟩ := run_bind_eq_ok.mp h'
  have hsame {bracket : Char} (hb : bracket ≠ '.') (hc₂ : c₂ = some bracket) :
      c₁ = some bracket := by
    cases hnext
    cases hnext'
    exact bracket_of_path hc hb hat ht hpath hpath' hc₂
  have hwidget : widgetFrom (t.restored lost).rest widget s₃ ≠ .ok (.scalar x, s₁) := by
    intro hr
    obtain ⟨_, s₄, _, hr⟩ := run_bind_eq_ok.mp hr
    exact absurd hr (widget_ne_ok_scalar _ _ _)
  split at h'
  · rw [hsame (by decide) rfl] at h
    exact absurd h hwidget
  · rw [hsame (by decide) rfl] at h
    exact absurd h hwidget
  · cases h'
    exact ⟨_, rfl⟩

theorem keepsScalars_valueWith :
    KeepsScalars left lost P (d.valueWith list widget)
      ((d.resized size).valueWith list' widget') := by
  refine keepsScalars_next (fun c => ?_) fun _ _ => unexpected_ne_ok _ _
  split
  · exact keepsScalars_of_scalar
  · exact keepsScalars_of_scalar
  · exact keepsScalars_of_scalar
  · exact keepsScalars_of_scalar
  · exact keepsScalars_of_list
  · exact keepsScalars_of_widget
  · exact keepsScalars_of_widget
  · next c' _ _ _ _ _ _ _ heq =>
      cases heq
      exact KeepsScalars.ite (fun _ => keepsScalars_of_scalar) fun _ =>
        KeepsScalars.ite (fun hname => keepsScalars_nameOrWidget hname) fun _ =>
          keepsScalars_unexpected
  · exact keepsScalars_unexpected

/-! ### Levels of depth -/

theorem lockstep_value_widget (levels : Nat) :
    LockstepValues left lost (d.value levels) ((d.resized size).value levels) ∧
      Lockstep left lost Anywhere (d.widget levels) ((d.resized size).widget levels) := by
  induction levels with
  | zero =>
      have hwidget : Lockstep left lost Anywhere (d.widget 0) ((d.resized size).widget 0) :=
        lockstep_widgetWith fun c hc => lockstep_tooDeep hc
      exact ⟨⟨lockstep_valueWith (lockstep_tooDeep (by decide)) hwidget, fails_valueWith,
        keepsScalars_valueWith⟩, hwidget⟩
  | succ levels ih =>
      obtain ⟨hvalue, hwidget⟩ := ih
      have hpv : Passes 0 ((d.resized size).value levels) := (passes_value levels).onward
      have hpw : Passes 0 ((d.resized size).widget levels) := (passes_widget levels).onward
      have hbody : Lockstep left lost Anywhere
          (d.widgetWith (d.widgetBody (d.value levels) (d.widget levels)))
          ((d.resized size).widgetWith
            ((d.resized size).widgetBody ((d.resized size).value levels)
              ((d.resized size).widget levels))) :=
        lockstep_widgetWith fun c _ => lockstep_widgetBody hvalue hwidget hpv hpw
      rw [value_succ, value_succ, widget_succ, widget_succ]
      exact ⟨⟨lockstep_valueWith (lockstep_list hvalue.lockstep hpv) hbody, fails_valueWith,
        keepsScalars_valueWith⟩, hbody⟩

theorem lockstep_value (levels : Nat) :
    Lockstep left lost P (d.value levels) ((d.resized size).value levels) :=
  (lockstep_value_widget levels).1.lockstep.at

theorem lockstep_widget (levels : Nat) :
    Lockstep left lost P (d.widget levels) ((d.resized size).widget levels) :=
  (lockstep_value_widget levels).2.at

end

end Decoding

end WidgetShorthand
