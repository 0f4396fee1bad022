import Mathlib.Data.Fintype.EquivFin
import WidgetShorthand.Proofs.RoundTrip

/-!
# Writing what was read

What was read is written as the same document again only if every widget that was written in full
still is. That need not be so: a reference to a similar pattern changes the shape of all the widgets
around it, and one of them may then match a pattern that it did not match before. Nothing else can
go wrong, since what a reference stands for is written as this very reference.

That the condition is necessary is a statement about texts: a widget in full and a reference are
never written alike. It is derived from reading. A reader whose samples all carry a type name that
occurs nowhere in the tree makes references visible in what it reads, and it reads both documents
alike.
-/

namespace WidgetShorthand

namespace Encoder

variable {e : Encoder} {stand : Entry → Widget → Widget} {levels : Nat}

/-- What is read where a widget was written in full would be written in full again. -/
def Stays (e : Encoder) (w : Widget) : Prop :=
  e.matchPattern? (e.echoWidget Entry.filled w) = none

/-! ## The condition suffices -/

/-- A reference and what it stands for are written alike. -/
theorem reference_filled {entry : Entry} {w : Widget} (hr : e.registry.Sound)
    (h : e.matchPattern? w = some entry) :
    e.matchPattern? (entry.filled w) = some entry ∧
      e.reference entry (entry.filled w) = e.reference entry w := by
  have hmem := matchPattern?_mem h
  have hentry := hr.entries entry hmem
  obtain ⟨_, hshape, _⟩ := fill_arguments hentry w
  have hfingerprint : (entry.filled w).fingerprint = entry.fingerprint := by
    rw [Widget.fingerprint, hshape, hentry.fingerprint, Widget.fingerprint]
  have huses : e.strategy.usesPatterns = true := by
    rw [← Bool.not_eq_false]
    intro hnot
    rw [matchPattern?_eq_none hnot] at h
    cases h
  constructor
  · rw [matchPattern?, if_pos huses, hfingerprint, hr.lookup?_of_mem hmem]
  · rw [reference, reference, arguments_filled hentry]

mutual

theorem widget_echo (hr : e.registry.Sound) : (w : Widget) → (levels : Nat) →
    (∀ v ∈ e.writtenWidget w, e.Stays v) →
    e.widget levels (e.echoWidget Entry.filled w) = e.widget levels w
  | ⟨t, ps, cs⟩, 0, _ => by
      cases hw : e.echoWidget Entry.filled ⟨t, ps, cs⟩
      rw [widget, widget]
  | ⟨t, ps, cs⟩, levels + 1, h => by
      rw [writtenWidget] at h
      cases hmatch : e.matchPattern? ⟨t, ps, cs⟩ with
      | some entry =>
          obtain ⟨hagain, hreference⟩ := reference_filled hr hmatch
          have hecho : e.echoWidget Entry.filled ⟨t, ps, cs⟩ = entry.filled ⟨t, ps, cs⟩ := by
            rw [echoWidget, hmatch]
          rw [hecho, widget, hmatch]
          cases hfilled : entry.filled ⟨t, ps, cs⟩ with
          | mk t' ps' cs' =>
              rw [hfilled] at hagain hreference
              rw [widget, hagain]
              exact hreference
      | none =>
          rw [hmatch] at h
          dsimp only at h
          rw [List.forall_mem_cons, List.forall_mem_append] at h
          obtain ⟨hself, hps, hcs⟩ := h
          have hecho : e.echoWidget Entry.filled ⟨t, ps, cs⟩ =
              ⟨t, e.echoProperties Entry.filled ps, e.echoChildren Entry.filled cs⟩ := by
            rw [echoWidget, hmatch]
          have hempty : (e.echoChildren Entry.filled cs).isEmpty = cs.isEmpty := by
            cases cs with
            | nil => rw [echoChildren]
            | cons c cs => rw [echoChildren]; rfl
          rw [Stays, hecho] at hself
          -- Both are written in full, so it is left to compare their parts.
          rw [hecho, widget, widget, hself, hmatch]
          dsimp only
          rw [properties_echo hr ps levels hps, children_echo hr cs levels hcs, hempty]

theorem properties_echo (hr : e.registry.Sound) : (ps : List Property) → (levels : Nat) →
    (∀ v ∈ e.writtenProperties ps, e.Stays v) →
    e.properties levels (e.echoProperties Entry.filled ps) = e.properties levels ps
  | [], _, _ => by rw [echoProperties]
  | ⟨key, v⟩ :: ps, levels, h => by
      rw [writtenProperties, List.forall_mem_append] at h
      rw [echoProperties, properties, properties, value_echo hr v levels h.1,
        properties_echo hr ps levels h.2]

theorem children_echo (hr : e.registry.Sound) : (cs : List Widget) → (levels : Nat) →
    (∀ v ∈ e.writtenChildren cs, e.Stays v) →
    e.children levels (e.echoChildren Entry.filled cs) = e.children levels cs
  | [], _, _ => by rw [echoChildren]
  | c :: cs, levels, h => by
      rw [writtenChildren, List.forall_mem_append] at h
      rw [echoChildren, children, children, widget_echo hr c levels h.1,
        children_echo hr cs levels h.2]

theorem value_echo (hr : e.registry.Sound) : (v : Value) → (levels : Nat) →
    (∀ w ∈ e.writtenValue v, e.Stays w) →
    e.value levels (e.echoValue Entry.filled v) = e.value levels v
  | .scalar s, _, _ => by rw [echoValue]
  | .widget w, levels, h => by
      rw [writtenValue] at h
      rw [echoValue, value, value, widget_echo hr w levels h]
  | .list vs, 0, _ => by rw [echoValue, value, value]
  | .list vs, levels + 1, h => by
      rw [writtenValue] at h
      rw [echoValue, value, value, items_echo hr vs levels h]

theorem items_echo (hr : e.registry.Sound) : (vs : List Value) → (levels : Nat) →
    (∀ w ∈ e.writtenItems vs, e.Stays w) →
    e.items levels (e.echoItems Entry.filled vs) = e.items levels vs
  | [], _, _ => by rw [echoItems]
  | v :: vs, levels, h => by
      rw [writtenItems, List.forall_mem_append] at h
      rw [echoItems, items, items, value_echo hr v levels h.1, items_echo hr vs levels h.2]

end

/-- A list is written alike when its elements are. -/
theorem mapM_map_eq {α : Type} {g : α → α} {f : α → Except EncodeError Fragment} {xs : List α}
    (h : ∀ x ∈ xs, f (g x) = f x) : (xs.map g).mapM f = xs.mapM f := by
  induction xs with
  | nil => rfl
  | cons x xs ih =>
      rw [List.forall_mem_cons] at h
      rw [List.map_cons, List.mapM_cons, List.mapM_cons, h.1, ih h.2]

theorem statement_echo (hr : e.registry.Sound) {s : Statement}
    (h : ∀ w ∈ e.writtenOption s.value, e.Stays w) :
    e.statement (e.echoStatement Entry.filled s) = e.statement s := by
  obtain ⟨keywords, value⟩ := s
  cases value with
  | none => rfl
  | some v =>
      rw [echoStatement, statement, statement]
      simp only [Option.map_some, Option.isNone_some, statementValue]
      rw [value_echo hr v _ h]

theorem methodBody_echo (hr : e.registry.Sound) {b : MethodBody}
    (h : ∀ w ∈ e.writtenBody b, e.Stays w) :
    e.methodBody (e.echoBody Entry.filled b) = e.methodBody b := by
  cases b with
  | widget w =>
      rw [echoBody, methodBody, methodBody, widget_echo hr w _ h]
  | statements block =>
      rw [echoBody, methodBody, methodBody, mapM_map_eq fun s hs => ?_]
      exact statement_echo hr fun w hw => h w (List.mem_flatMap_of_mem hs hw)

theorem method_echo
    (hr : e.registry.Sound) {m : Method} (h : ∀ w ∈ e.writtenBody m.body, e.Stays w) :
    e.method (e.echoMethod Entry.filled m) = e.method m := by
  rw [echoMethod, method, method, methodBody_echo hr h]

theorem field_echo (hr : e.registry.Sound) {f : Field}
    (h : ∀ w ∈ e.writtenOption f.initializer, e.Stays w) :
    e.field (e.echoField Entry.filled f) = e.field f := by
  obtain ⟨modifiers, name, typeRef, initializer⟩ := f
  cases initializer with
  | none => rfl
  | some v =>
      rw [echoField, field, field]
      simp only [Option.map_some, optional]
      rw [value_echo hr v _ h]

theorem classDecl_echo
    (hr : e.registry.Sound) {c : ClassDecl} (h : ∀ w ∈ e.writtenClass c, e.Stays w) :
    e.classDecl (e.echoClass Entry.filled c) = e.classDecl c := by
  rw [writtenClass, List.forall_mem_append] at h
  have hfields : (c.fields.map (e.echoField Entry.filled)).mapM e.field = c.fields.mapM e.field :=
    mapM_map_eq fun f hf => field_echo hr fun w hw => h.1 w (List.mem_flatMap_of_mem hf hw)
  have hmethods : (c.methods.map (e.echoMethod Entry.filled)).mapM e.method =
    c.methods.mapM e.method :=
    mapM_map_eq fun m hm => method_echo hr fun w hw => h.2 w (List.mem_flatMap_of_mem hm hw)
  rw [echoClass, classDecl, classDecl, hfields, hmethods]

theorem item_echo (hr : e.registry.Sound) {n : Node} (h : ∀ w ∈ e.writtenItem n, e.Stays w) :
    e.item (e.echoItem Entry.filled n) = e.item n := by
  cases n with
  | classDecl c => rw [echoItem, item, item, classDecl_echo hr h]
  | method m => rw [echoItem, item, item, method_echo hr h]
  | widget w => rw [echoItem, item, item, widget_echo hr w _ h]
  | literal l => rfl
  | unit items => rfl

/-- A tree whose widgets in full stay in full is written as its echo is. -/
theorem document_echo (hr : e.registry.Sound) {tree : Node} (h : ∀ w ∈ e.written tree, e.Stays w) :
    e.document (e.echo Entry.filled tree) = e.document tree := by
  cases tree with
  | classDecl c => exact item_echo hr (n := .classDecl c) h
  | method m => exact item_echo hr (n := .method m) h
  | widget w => exact item_echo hr (n := .widget w) h
  | literal l => rfl
  | unit items =>
      have hitems : (items.map (e.echoItem Entry.filled)).mapM e.item = items.mapM e.item :=
        mapM_map_eq fun n hn => item_echo hr fun w hw => h w (List.mem_flatMap_of_mem hn hw)
      cases items with
      | nil => rfl
      | cons n ns =>
          rw [List.map_cons] at hitems
          rw [echo, List.map_cons, document, document, hitems]

/-! ## The condition is necessary -/

variable {tag : String}

mutual

theorem stays_of_widget (htag : ∀ entry w, (stand entry w).typeName = tag) : (w : Widget) →
    (∀ v ∈ e.writtenWidget w, v.typeName ≠ tag) →
    e.echoWidget stand (e.echoWidget Entry.filled w) = e.echoWidget stand w →
    ∀ v ∈ e.writtenWidget w, e.Stays v
  | ⟨t, ps, cs⟩, hfresh, heq => by
      rw [writtenWidget] at hfresh ⊢
      cases hmatch : e.matchPattern? ⟨t, ps, cs⟩ with
      | some entry => nofun
      | none =>
          rw [hmatch] at hfresh
          dsimp only at hfresh ⊢
          rw [List.forall_mem_cons, List.forall_mem_append] at hfresh
          obtain ⟨hself, hps, hcs⟩ := hfresh
          have hecho (stand : Entry → Widget → Widget) : e.echoWidget stand ⟨t, ps, cs⟩ =
              ⟨t, e.echoProperties stand ps, e.echoChildren stand cs⟩ := by
            rw [echoWidget, hmatch]
          rw [hecho, hecho, echoWidget] at heq
          have hstays : e.Stays ⟨t, ps, cs⟩ := by
            rw [Stays, hecho]
            cases hagain : e.matchPattern?
                ⟨t, e.echoProperties Entry.filled ps, e.echoChildren Entry.filled cs⟩ with
            | none => rfl
            | some entry =>
                rw [hagain] at heq
                exact absurd ((congrArg Widget.typeName heq).symm.trans (htag entry _)) hself
          rw [Stays, hecho] at hstays
          rw [hstays] at heq
          injection heq with _ hproperties hchildren
          rw [List.forall_mem_cons, List.forall_mem_append]
          refine ⟨?_, stays_of_properties htag ps hps hproperties,
            stays_of_children htag cs hcs hchildren⟩
          rw [Stays, hecho, hstays]

theorem stays_of_properties (htag : ∀ entry w, (stand entry w).typeName = tag) :
    (ps : List Property) → (∀ v ∈ e.writtenProperties ps, v.typeName ≠ tag) →
    e.echoProperties stand (e.echoProperties Entry.filled ps) = e.echoProperties stand ps →
    ∀ v ∈ e.writtenProperties ps, e.Stays v
  | [], _, _ => by rw [writtenProperties]; nofun
  | ⟨key, v⟩ :: ps, hfresh, heq => by
      rw [writtenProperties, List.forall_mem_append] at hfresh ⊢
      rw [echoProperties, echoProperties, echoProperties, List.cons.injEq, Property.mk.injEq] at heq
      exact ⟨stays_of_value htag v hfresh.1 heq.1.2, stays_of_properties htag ps hfresh.2 heq.2⟩

theorem stays_of_children (htag : ∀ entry w, (stand entry w).typeName = tag) :
    (cs : List Widget) → (∀ v ∈ e.writtenChildren cs, v.typeName ≠ tag) →
    e.echoChildren stand (e.echoChildren Entry.filled cs) = e.echoChildren stand cs →
    ∀ v ∈ e.writtenChildren cs, e.Stays v
  | [], _, _ => by rw [writtenChildren]; nofun
  | c :: cs, hfresh, heq => by
      rw [writtenChildren, List.forall_mem_append] at hfresh ⊢
      rw [echoChildren, echoChildren, echoChildren, List.cons.injEq] at heq
      exact ⟨stays_of_widget htag c hfresh.1 heq.1, stays_of_children htag cs hfresh.2 heq.2⟩

theorem stays_of_value (htag : ∀ entry w, (stand entry w).typeName = tag) :
    (v : Value) → (∀ w ∈ e.writtenValue v, w.typeName ≠ tag) →
    e.echoValue stand (e.echoValue Entry.filled v) = e.echoValue stand v →
    ∀ w ∈ e.writtenValue v, e.Stays w
  | .scalar s, _, _ => by rw [writtenValue]; nofun
  | .widget w, hfresh, heq => by
      rw [writtenValue] at hfresh ⊢
      rw [echoValue, echoValue, echoValue, Value.widget.injEq] at heq
      exact stays_of_widget htag w hfresh heq
  | .list vs, hfresh, heq => by
      rw [writtenValue] at hfresh ⊢
      rw [echoValue, echoValue, echoValue, Value.list.injEq] at heq
      exact stays_of_items htag vs hfresh heq

theorem stays_of_items (htag : ∀ entry w, (stand entry w).typeName = tag) :
    (vs : List Value) → (∀ w ∈ e.writtenItems vs, w.typeName ≠ tag) →
    e.echoItems stand (e.echoItems Entry.filled vs) = e.echoItems stand vs →
    ∀ w ∈ e.writtenItems vs, e.Stays w
  | [], _, _ => by rw [writtenItems]; nofun
  | v :: vs, hfresh, heq => by
      rw [writtenItems, List.forall_mem_append] at hfresh ⊢
      rw [echoItems, echoItems, echoItems, List.cons.injEq] at heq
      exact ⟨stays_of_value htag v hfresh.1 heq.1, stays_of_items htag vs hfresh.2 heq.2⟩

end

theorem stays_of_option (htag : ∀ entry w, (stand entry w).typeName = tag) {v : Option Value}
    (hfresh : ∀ w ∈ e.writtenOption v, w.typeName ≠ tag)
    (heq : (v.map (e.echoValue Entry.filled)).map (e.echoValue stand) = v.map (e.echoValue stand)) :
    ∀ w ∈ e.writtenOption v, e.Stays w := by
  cases v with
  | none => nofun
  | some v => exact stays_of_value htag v hfresh (Option.some.inj heq)

theorem stays_of_body (htag : ∀ entry w, (stand entry w).typeName = tag) {b : MethodBody}
    (hfresh : ∀ w ∈ e.writtenBody b, w.typeName ≠ tag)
    (heq : e.echoBody stand (e.echoBody Entry.filled b) = e.echoBody stand b) :
    ∀ w ∈ e.writtenBody b, e.Stays w := by
  cases b with
  | widget w => exact stays_of_widget htag w hfresh (MethodBody.widget.inj heq)
  | statements block =>
      intro w hw
      obtain ⟨s, hs, hw⟩ := List.mem_flatMap.mp hw
      rw [echoBody, echoBody, echoBody, MethodBody.statements.injEq, List.map_map,
        List.map_inj_left] at heq
      refine stays_of_option htag (fun v hv => ?_) (congrArg Statement.value (heq s hs)) w hw
      exact hfresh v (List.mem_flatMap_of_mem hs hv)

theorem stays_of_class (htag : ∀ entry w, (stand entry w).typeName = tag) {c : ClassDecl}
    (hfresh : ∀ w ∈ e.writtenClass c, w.typeName ≠ tag)
    (heq : e.echoClass stand (e.echoClass Entry.filled c) = e.echoClass stand c) :
    ∀ w ∈ e.writtenClass c, e.Stays w := by
  rw [writtenClass, List.forall_mem_append] at hfresh ⊢
  have hfields := congrArg ClassDecl.fields heq
  have hmethods := congrArg ClassDecl.methods heq
  simp only [echoClass, List.map_map, List.map_inj_left] at hfields hmethods
  constructor
  · intro w hw
    obtain ⟨f, hf, hw⟩ := List.mem_flatMap.mp hw
    refine stays_of_option htag (fun v hv => ?_) (congrArg Field.initializer (hfields f hf)) w hw
    exact hfresh.1 v (List.mem_flatMap_of_mem hf hv)
  · intro w hw
    obtain ⟨m, hm, hw⟩ := List.mem_flatMap.mp hw
    refine stays_of_body htag (fun v hv => ?_) (congrArg Method.body (hmethods m hm)) w hw
    exact hfresh.2 v (List.mem_flatMap_of_mem hm hv)

theorem stays_of_item (htag : ∀ entry w, (stand entry w).typeName = tag) {n : Node}
    (hfresh : ∀ w ∈ e.writtenItem n, w.typeName ≠ tag)
    (heq : e.echoItem stand (e.echoItem Entry.filled n) = e.echoItem stand n) :
    ∀ w ∈ e.writtenItem n, e.Stays w := by
  cases n with
  | classDecl c => exact stays_of_class htag hfresh (Node.classDecl.inj heq)
  | method m => exact stays_of_body htag hfresh (congrArg Method.body (Node.method.inj heq))
  | widget w => exact stays_of_widget htag w hfresh (Node.widget.inj heq)
  | literal l => nofun
  | unit items => nofun

/-- If references cannot be mistaken for anything else, two equal echoes are echoes of references in
the same places. -/
theorem stays_of_echo (htag : ∀ entry w, (stand entry w).typeName = tag) {tree : Node}
    (hfresh : ∀ w ∈ e.written tree, w.typeName ≠ tag)
    (heq : e.echo stand (e.echo Entry.filled tree) = e.echo stand tree) :
    ∀ w ∈ e.written tree, e.Stays w := by
  cases tree with
  | classDecl c => exact stays_of_item htag (n := .classDecl c) hfresh heq
  | method m => exact stays_of_item htag (n := .method m) hfresh heq
  | widget w => exact stays_of_item htag (n := .widget w) hfresh heq
  | literal l => nofun
  | unit items =>
      intro w hw
      obtain ⟨n, hn, hw⟩ := List.mem_flatMap.mp hw
      rw [echo, echo, echo, Node.unit.injEq, List.map_map, List.map_inj_left] at heq
      refine stays_of_item htag (fun v hv => ?_) (heq n hn) w hw
      exact hfresh v (List.mem_flatMap_of_mem hn hv)

end Encoder

/-! ## Samples with another type name -/

/-- A widget under another type name. -/
def Widget.retyped (w : Widget) (name : String) : Widget :=
  ⟨name, w.properties, w.children⟩

/-- A pattern with the sample under another type name. -/
def Entry.retyped (entry : Entry) (name : String) : Entry :=
  { entry with sample := entry.sample.retyped name }

/-- A registry in which the samples of all patterns have the same type name. -/
def Registry.retyped (r : Registry) (name : String) : Registry :=
  ⟨r.items.map fun item => { item with entry := item.entry.retyped name }, r.nextNumber⟩

theorem Registry.get?_retyped (r : Registry) (name id : String) :
    (r.retyped name).get? id = (r.get? id).map (·.retyped name) := by
  have hentries : (r.retyped name).entries = r.entries.map (·.retyped name) := by
    rw [entries, entries, retyped, List.map_map, List.map_map]
    rfl
  rw [get?, get?, hentries, List.find?_map]
  rfl

/-- The type name of a widget is nowhere on the way to its slots. -/
theorem Widget.replace?_retyped (w : Widget) (name : String) (path : SlotPath) (v : Value) :
    (w.retyped name).replace? path v = (w.replace? path v).map (·.retyped name) := by
  cases path with
  | nil => rfl
  | cons step path =>
      cases step with
      | property i key =>
          have hat : (w.retyped name).propertyAt? i key = w.propertyAt? i key := rfl
          rw [replace?, replace?, Value.replace?, Value.replace?, hat]
          cases w.propertyAt? i key with
          | none => rfl
          | some u => cases h : Value.replace? v path u <;> simp [h, retyped]
      | item i => rfl
      | child i =>
          cases path with
          | nil => rfl
          | cons step path =>
              have hat : (w.retyped name).children[i]? = w.children[i]? := rfl
              rw [replace?, replace?, Value.replace?, Value.replace?, hat]
              cases w.children[i]? with
              | none => rfl
              | some c =>
                  cases h : Value.replace? v (step :: path) (.widget c) with
                  | none => simp [h]
                  | some u => cases u <;> simp [h, retyped]

theorem fill_retyped (entry : Entry) (name : String) (args : List (Option Scalar)) :
    Decoding.fill (entry.retyped name) args = (Decoding.fill entry args).map (·.retyped name) := by
  have hslots : ∀ (slots : List (SlotPath × Option Scalar)) (w : Widget),
      slots.foldlM Decoding.fillSlot (w.retyped name) =
        (slots.foldlM Decoding.fillSlot w).map (·.retyped name) := by
    intro slots
    induction slots with
    | nil => exact fun w => rfl
    | cons slot slots ih =>
        intro w
        have hslot : Decoding.fillSlot (w.retyped name) slot =
            (Decoding.fillSlot w slot).map (·.retyped name) := by
          obtain ⟨path, arg⟩ := slot
          cases arg with
          | none => rfl
          | some s => exact w.replace?_retyped name path (.scalar s)
        rw [List.foldlM_cons, List.foldlM_cons, hslot]
        cases Decoding.fillSlot w slot with
        | none => rfl
        | some u => exact ih u
  exact hslots _ _

theorem understands_retyped {e : Encoder} (ht : e.symbols.Sound) (hr : e.registry.Sound)
    (name : String) : Understands ⟨e.symbols, e.registry.retyped name, e.options.maxDepth⟩ e
      fun entry w => (entry.filled w).retyped name where
  symbols := rfl
  tables := ht
  depth := rfl
  references {w entry} h := by
    have hmem := matchPattern?_mem h
    have hentry := hr.entries entry hmem
    refine ⟨hentry.id, entry.retyped name, ?_, length_arguments_le entry w, ?_⟩
    · rw [Registry.get?_retyped, hr.get?_of_mem hmem, Option.map_some]
    · rw [fill_retyped, (fill_arguments hentry w).1, Option.map_some]

/-! ## The condition -/

/-- What was read is written as the same document again exactly if every widget that was written in
full stays in full. -/
theorem encode_decode_encode {symbols : List Symbol} {e : Encoder} {tree : Node} {enc : Encoded}
    (ht : Symbols.ofList symbols = .ok e.symbols) (hr : e.registry.Reachable)
    (h : e.encode tree = .ok enc) :
    ∃ back, (⟨e.symbols, e.registry, e.options.maxDepth⟩ : Decoder).decode enc.document = .ok back ∧
      ((e.encode back).map (·.document) = .ok enc.document ↔ ∀ w ∈ e.written tree, e.Stays w) := by
  have ht := Symbols.sound_of_ofList ht
  have hr := hr.sound
  have hu :=
    understands_later (e := e) (d := ⟨e.symbols, e.registry, e.options.maxDepth⟩) rfl ht rfl
    hr (.refl _)
  refine ⟨e.echo Entry.filled tree, decode_encode hu h, fun hagain => ?_, fun hstays => ?_⟩
  · obtain ⟨again, hencode, hdocument⟩ := map_eq_ok.mp hagain
    -- One reader for both documents, with a type name that no widget in full has.
    obtain ⟨tag, htag⟩ := Infinite.exists_notMem_finset
      ((e.written tree).map Widget.typeName).toFinset
    have hknown := understands_retyped (e := e) ht hr tag
    have hfirst := decode_encode hknown h
    have hsecond := decode_encode hknown hencode
    rw [hdocument, hfirst] at hsecond
    have htyped : ∀ (entry : Entry) w, ((entry.filled w).retyped tag).typeName = tag :=
      fun _ _ => rfl
    refine Encoder.stays_of_echo htyped (fun w hw heq => htag ?_) (Except.ok.inj hsecond).symm
    exact List.mem_toFinset.mpr (List.mem_map.mpr ⟨w, hw, heq⟩)
  · obtain ⟨f, hf, rfl⟩ := map_eq_ok.mp h
    rw [Encoder.encode, Encoder.document_echo hr hstays, hf]
    rfl

/-- A reference to a similar pattern makes the widget around it similar to another one. -/
theorem encode_decode_encode_lossy :
    ∃ (e : Encoder) (tree : Node) (enc : Encoded) (back : Node), e.registry.Reachable ∧
      e.encode tree = .ok enc ∧ enc.document = "!P{a:1}[@w1()]" ∧
      (⟨e.symbols, e.registry, e.options.maxDepth⟩ : Decoder).decode enc.document = .ok back ∧
      (e.encode back).map (·.document) = .ok "@w2()" ∧ ¬ ∀ w ∈ e.written tree, e.Stays w := by
  let one : Value := .scalar (.number "1")
  let small : Registration := .register ⟨"Y", [], []⟩
  let large : Registration := .register ⟨"Q", [⟨"b", one⟩], [⟨"Y", [], []⟩]⟩
  let e : Encoder := ⟨.empty, (Registry.empty.perform small).perform large, .patternReference,
    { EncodeOptions.default with similarityThreshold := 0.78 }⟩
  let tree : Node := .widget ⟨"P", [⟨"a", one⟩], [⟨"X", [], []⟩]⟩
  let echo : Node := .widget ⟨"P", [⟨"a", one⟩], [⟨"Y", [], []⟩]⟩
  have hr : e.registry.Reachable := by
    dsimp only [e]
    exact .next large (.next small .empty)
  have ht : Symbols.ofList [] = .ok e.symbols := ok_of_toOption (by decide +kernel)
  have hdocument : (e.encode tree).map (·.document) = .ok "!P{a:1}[@w1()]" :=
    ok_of_toOption (by decide +kernel)
  have hecho : (⟨e.symbols, e.registry, e.options.maxDepth⟩ : Decoder).decode "!P{a:1}[@w1()]" =
      .ok echo := ok_of_toOption (by decide +kernel)
  have hagain : (e.encode echo).map (·.document) = .ok "@w2()" :=
    ok_of_toOption (by decide +kernel)
  clear_value e tree echo
  obtain ⟨enc, henc, hdocument⟩ := map_eq_ok.mp hdocument
  obtain ⟨back, hback, hiff⟩ := encode_decode_encode ht hr henc
  obtain rfl : echo = back := by
    rw [hdocument, hecho] at hback
    exact Except.ok.inj hback
  refine ⟨e, tree, enc, echo, hr, henc, hdocument, hback, hagain, fun hstays => ?_⟩
  have hsame := (hagain.symm.trans (hiff.mpr hstays)).trans (congrArg Except.ok hdocument)
  exact absurd (Except.ok.inj hsame) (by decide)

end WidgetShorthand
