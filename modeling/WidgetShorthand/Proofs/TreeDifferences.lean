import WidgetShorthand.Proofs.EditDistance
import WidgetShorthand.Proofs.PositiveFloats
import WidgetShorthand.Proofs.RegistryGrowth
import WidgetShorthand.Proofs.Success
import WidgetShorthand.Validation.RoundTrip

/-!
# No difference means equal

Comparing two trees stops early in places: at different types it does not look at properties and
children, at different keys not at values, and at different lengths not at elements. Each stop
leaves a difference behind, so nothing goes unnoticed: the comparison finds nothing exactly if the
trees are equal. There is one lemma to each kind of node, and lists compare as their elements do
once the lengths agree.

A validation that found no difference has therefore read back the very tree that was written, and
the rest of its result is about comparing a tree with itself.
-/

namespace WidgetShorthand

namespace Diff

/-! ## Single differences -/

theorem unlessSame_eq_nil {same : Bool} {path : String} {difference : Difference} :
    unlessSame same path difference = [] ↔ same = true := by
  unfold unlessSame
  cases same <;> simp

theorem names_eq_nil {path expected actual : String} :
    names path expected actual = [] ↔ expected = actual := by
  rw [names, unlessSame_eq_nil, beq_iff_eq]

theorem modifiers_eq_nil {path : String} {expected actual : List String} :
    modifiers path expected actual = [] ↔ expected = actual := by
  rw [modifiers, unlessSame_eq_nil, beq_iff_eq]

theorem types_eq_nil {path : String} {expected actual : Option TypeRef} :
    types path expected actual = [] ↔ expected = actual := by
  rw [types, unlessSame_eq_nil, decide_eq_true_iff]

theorem scalars_eq_nil (path : String) (s t : Scalar) : scalars path s t = [] ↔ s = t := by
  cases s <;> cases t <;> simp [scalars, unlessSame_eq_nil]

theorem lists_eq_nil {α : Type} {path : String} {expected actual : List α} {elements : List Diff}
    (h : expected.length = actual.length → (elements = [] ↔ expected = actual)) :
    lists path expected actual elements = [] ↔ expected = actual := by
  unfold lists
  split
  · next hlength => exact h hlength
  · next hlength =>
      constructor
      · exact nofun
      · rintro rfl
        exact absurd rfl hlength

/-! ## Widgets and values -/

mutual

theorem widgets_eq_nil : (w w' : Widget) → (path : String) → (widgets path w w' = [] ↔ w = w')
  | ⟨t, ps, cs⟩, ⟨t', ps', cs'⟩, path => by
      rw [widgets, Widget.mk.injEq]
      split
      · next ht =>
          rw [List.append_eq_nil_iff, lists_eq_nil (properties_eq_nil ps ps' _ 0),
            lists_eq_nil (children_eq_nil cs cs' _ 0), and_iff_right ht]
      · next ht =>
          constructor
          · exact nofun
          · exact fun h => absurd h.1 ht

theorem properties_eq_nil : (ps ps' : List Property) → (path : String) → (index : Nat) →
    ps.length = ps'.length → (properties path index ps ps' = [] ↔ ps = ps')
  | [], [], _, _, _ => by simp [properties]
  | [], _ :: _, _, _, h => by cases h
  | _ :: _, [], _, _, h => by cases h
  | ⟨k, v⟩ :: ps, ⟨k', v'⟩ :: ps', path, index, h => by
      have hrest := properties_eq_nil ps ps' path (index + 1) (Nat.succ.inj h)
      rw [properties, List.append_eq_nil_iff, hrest, List.cons.injEq, Property.mk.injEq]
      split
      · next hk => rw [values_eq_nil v v', and_iff_right hk]
      · next hk =>
          constructor
          · rintro ⟨hone, _⟩
            cases hone
          · exact fun heq => absurd heq.1.1 hk

theorem children_eq_nil : (cs cs' : List Widget) → (path : String) → (index : Nat) →
    cs.length = cs'.length → (children path index cs cs' = [] ↔ cs = cs')
  | [], [], _, _, _ => by simp [children]
  | [], _ :: _, _, _, h => by cases h
  | _ :: _, [], _, _, h => by cases h
  | c :: cs, c' :: cs', path, index, h => by
      have hrest := children_eq_nil cs cs' path (index + 1) (Nat.succ.inj h)
      rw [children, List.append_eq_nil_iff, widgets_eq_nil c c', hrest, List.cons.injEq]

theorem values_eq_nil : (v v' : Value) → (path : String) → (values path v v' = [] ↔ v = v')
  | .scalar s, .scalar t, path => by
      rw [values, scalars_eq_nil, Value.scalar.injEq]
  | .widget w, .widget w', path => by
      rw [values, widgets_eq_nil w w', Value.widget.injEq]
  | .list vs, .list vs', path => by
      rw [values, lists_eq_nil (items_eq_nil vs vs' path 0), Value.list.injEq]
  | .scalar _, .widget _, _ | .scalar _, .list _, _ | .widget _, .scalar _, _
  | .widget _, .list _, _ | .list _, .scalar _, _ | .list _, .widget _, _ => by
      simp [values]

theorem items_eq_nil : (vs vs' : List Value) → (path : String) → (index : Nat) →
    vs.length = vs'.length → (items path index vs vs' = [] ↔ vs = vs')
  | [], [], _, _, _ => by simp [items]
  | [], _ :: _, _, _, h => by cases h
  | _ :: _, [], _, _, h => by cases h
  | v :: vs, v' :: vs', path, index, h => by
      have hrest := items_eq_nil vs vs' path (index + 1) (Nat.succ.inj h)
      rw [items, List.append_eq_nil_iff, values_eq_nil v v', hrest, List.cons.injEq]

end

theorem options_eq_nil (path : String) (v v' : Option Value) :
    options path v v' = [] ↔ v = v' := by
  cases v <;> cases v' <;> simp [options, values_eq_nil]

/-! ## Declarations -/

section Lists

variable {α : Type} {compare : String → α → α → List Diff}
  (h : ∀ path x y, compare path x y = [] ↔ x = y)
include h

theorem elements_eq_nil (path : String) (index : Nat) {xs ys : List α}
    (hlength : xs.length = ys.length) : elements compare path index xs ys = [] ↔ xs = ys := by
  induction xs generalizing index ys with
  | nil =>
      cases ys with
      | nil => simp [elements]
      | cons y ys => cases hlength
  | cons x xs ih =>
      cases ys with
      | nil => cases hlength
      | cons y ys =>
          rw [elements, List.append_eq_nil_iff, h, ih (index + 1) (Nat.succ.inj hlength),
            List.cons.injEq]

theorem listsWith_eq_nil (path : String) (xs ys : List α) :
    listsWith compare path xs ys = [] ↔ xs = ys :=
  lists_eq_nil (elements_eq_nil h path 0)

end Lists

theorem fields_eq_nil (path : String) (a b : Field) : fields path a b = [] ↔ a = b := by
  obtain ⟨m, n, t, v⟩ := a
  obtain ⟨m', n', t', v'⟩ := b
  simp only [fields, List.append_eq_nil_iff, modifiers_eq_nil, names_eq_nil, types_eq_nil,
    options_eq_nil, Field.mk.injEq, and_assoc]

theorem params_eq_nil (path : String) (a b : Param) : params path a b = [] ↔ a = b := by
  obtain ⟨n, t⟩ := a
  obtain ⟨n', t'⟩ := b
  rw [params, List.append_eq_nil_iff, names_eq_nil, types_eq_nil, Param.mk.injEq]

theorem statements_eq_nil (path : String) (a b : Statement) : statements path a b = [] ↔ a = b := by
  obtain ⟨ks, v⟩ := a
  obtain ⟨ks', v'⟩ := b
  rw [statements, List.append_eq_nil_iff, modifiers_eq_nil, options_eq_nil, Statement.mk.injEq]

theorem methodBodies_eq_nil (path : String) (a b : MethodBody) :
    methodBodies path a b = [] ↔ a = b := by
  cases a <;> cases b <;> simp [methodBodies, widgets_eq_nil, listsWith_eq_nil statements_eq_nil]

theorem methods_eq_nil (path : String) (a b : Method) : methods path a b = [] ↔ a = b := by
  obtain ⟨m, n, ps, t, body⟩ := a
  obtain ⟨m', n', ps', t', body'⟩ := b
  simp only [methods, List.append_eq_nil_iff, modifiers_eq_nil, names_eq_nil,
    listsWith_eq_nil params_eq_nil, types_eq_nil, methodBodies_eq_nil, Method.mk.injEq, and_assoc]

theorem classDecls_eq_nil (path : String) (a b : ClassDecl) : classDecls path a b = [] ↔ a = b := by
  obtain ⟨n, t, fs, ms⟩ := a
  obtain ⟨n', t', fs', ms'⟩ := b
  simp only [classDecls, List.append_eq_nil_iff, names_eq_nil, types_eq_nil,
    listsWith_eq_nil fields_eq_nil, listsWith_eq_nil methods_eq_nil, ClassDecl.mk.injEq, and_assoc]

/-! ## Trees -/

mutual

theorem nodes_eq_nil : (n n' : Node) → (path : String) → (nodes path n n' = [] ↔ n = n')
  | .classDecl c, n', path => by
      cases n' with
      | classDecl c' => rw [nodes, classDecls_eq_nil, Node.classDecl.injEq]
      | _ => simp [nodes]
  | .method m, n', path => by
      cases n' with
      | method m' => rw [nodes, methods_eq_nil, Node.method.injEq]
      | _ => simp [nodes]
  | .widget w, n', path => by
      cases n' with
      | widget w' => rw [nodes, widgets_eq_nil, Node.widget.injEq]
      | _ => simp [nodes]
  | .literal l, n', path => by
      cases n' with
      | literal l' => rw [nodes, scalars_eq_nil, Scalar.literal.injEq, Node.literal.injEq]
      | _ => simp [nodes]
  | .unit ns, n', path => by
      cases n' with
      | unit ns' => rw [nodes, lists_eq_nil (nodeItems_eq_nil ns ns' path 0), Node.unit.injEq]
      | _ => simp [nodes]

theorem nodeItems_eq_nil : (ns ns' : List Node) → (path : String) → (index : Nat) →
    ns.length = ns'.length → (nodeItems path index ns ns' = [] ↔ ns = ns')
  | [], [], _, _, _ => by simp [nodeItems]
  | [], _ :: _, _, _, h => by cases h
  | _ :: _, [], _, _, h => by cases h
  | n :: ns, n' :: ns', path, index, h => by
      have hrest := nodeItems_eq_nil ns ns' path (index + 1) (Nat.succ.inj h)
      rw [nodeItems, List.append_eq_nil_iff, nodes_eq_nil n n', hrest, List.cons.injEq]

end

end Diff

theorem diff_eq_nil {a b : Node} : diff a b = [] ↔ a = b :=
  Diff.nodes_eq_nil a b "root"

/-! ## Validations without differences -/

theorem Sequence.similarity_self {α : Type} [DecidableEq α] (xs : List α) :
    Sequence.similarity xs xs = 1.0 :=
  Sequence.similarity_of_editDistance (Sequence.editDistance_eq_zero.mpr rfl)

theorem compareSources_self (s : String) : compareSources s s = ⟨true, 1.0⟩ := by
  unfold compareSources
  exact if_pos rfl

namespace Validator

variable {v : Validator} {tree : Node} {result : Validation}

/-- A result is about a document that was written, and either about the tree that was read back or
about the fault that was found. -/
theorem validate_eq_ok : v.validate tree = .ok result ↔
    ∃ enc, (v.encoder (v.strategyFor tree)).encode tree = .ok enc ∧
      ((∃ back, v.decoder.decode enc.document = .ok back ∧
          compared (v.encoder (v.strategyFor tree)) tree back enc.document = result) ∨
        ∃ fault, v.decoder.decode enc.document = .error fault ∧
          undecodable (v.strategyFor tree) enc.document fault = result) := by
  unfold validate
  rw [bind_eq_ok]
  refine exists_congr fun enc => and_congr_right fun _ => ?_
  cases hread : v.decoder.decode enc.document with
  | ok back => simp [pure, Except.pure]
  | error fault => simp [pure, Except.pure, encoder]

theorem compared_reversible (e : Encoder) (tree back : Node) (document : String) :
    (compared e tree back document).reversible = true ↔ tree = back := by
  rw [compared, List.isEmpty_iff, diff_eq_nil]

theorem writesAs_of_encode {e : Encoder} {enc : Encoded} (h : e.encode tree = .ok enc) :
    writesAs e tree enc.document = true := by
  rw [writesAs, h]
  exact decide_eq_true rfl

end Validator

/-- Comparing finds nothing exactly if the trees are equal. So a validation calls a tree reversible
exactly if reading its document gives the tree back, and then writing again gives the same document,
the sources agree and the similarity is one. -/
theorem reversible_iff_decode :
    (∀ a b : Node, diff a b = [] ↔ a = b) ∧
    ∀ (v : Validator) (tree : Node) (result : Validation), v.validate tree = .ok result →
      (∃ enc, (v.encoder (v.strategyFor tree)).encode tree = .ok enc ∧
        result.document = enc.document) ∧
      (result.reversible = true ↔ v.decoder.decode result.document = .ok tree) ∧
      (result.reversible = true → result.idempotent = true ∧ result.sourceEquivalent = true ∧
        result.similarity = 1.0) := by
  refine ⟨fun a b => diff_eq_nil, fun v tree result h => ?_⟩
  obtain ⟨enc, henc, ⟨back, hback, rfl⟩ | ⟨fault, hfault, rfl⟩⟩ := Validator.validate_eq_ok.mp h
  · refine ⟨⟨enc, henc, rfl⟩, ?_, fun hreversible => ?_⟩
    · have hread : v.decoder.decode enc.document = .ok tree ↔ tree = back := by
        rw [hback, Except.ok.injEq, eq_comm]
      exact (Validator.compared_reversible ..).trans hread.symm
    · cases (Validator.compared_reversible ..).mp hreversible
      refine ⟨Validator.writesAs_of_encode henc, ?_, Sequence.similarity_self tree.tokens⟩
      exact congrArg SourceComparison.equivalent (compareSources_self _)
  · refine ⟨⟨enc, henc, rfl⟩, ⟨nofun, fun hread => ?_⟩, nofun⟩
    cases hfault.symm.trans hread

/-- A row that a reference brings back, and one that it does not. -/
theorem reversible_rows :
    let row (gap : String) (items : List String) : Widget :=
      ⟨"Row", [⟨"gap", .scalar (.number gap)⟩,
        ⟨"items", .list (items.map fun name => .scalar (.ident name))⟩], []⟩
    let v : Validator := ⟨.empty, Registry.empty.perform (.register (row "1" ["a", "a"])),
      some .patternReference, .default, { EncodeOptions.default with similarityThreshold := 0.5 }⟩
    let same : Node := .widget (row "2" ["c", "d"])
    let shorter : Node := .widget (row "2" ["c"])
    (∃ result, v.validate same = .ok result ∧ result.document = "@w1(2,c,d)" ∧
      v.decoder.decode result.document = .ok same ∧ result.similarity = 1.0) ∧
    ∃ result, v.validate shorter = .ok result ∧ result.document = "@w1(2,c)" ∧
      v.decoder.decode result.document ≠ .ok shorter := by
  intro row v same shorter
  have hsame : (v.validate same).map (fun r => (r.document, r.reversible)) =
      .ok ("@w1(2,c,d)", true) := ok_of_toOption (by decide +kernel)
  have hshorter : (v.validate shorter).map (fun r => (r.document, r.reversible)) =
      .ok ("@w1(2,c)", false) := ok_of_toOption (by decide +kernel)
  clear_value v same shorter
  obtain ⟨_, hvalidate⟩ := reversible_iff_decode
  obtain ⟨result, hresult, heq⟩ := map_eq_ok.mp hsame
  obtain ⟨result', hresult', heq'⟩ := map_eq_ok.mp hshorter
  rw [Prod.mk.injEq] at heq heq'
  obtain ⟨_, hiff, hall⟩ := hvalidate v same result hresult
  obtain ⟨_, hiff', _⟩ := hvalidate v shorter result' hresult'
  refine ⟨⟨result, hresult, heq.1, hiff.mp heq.2, (hall heq.2).2.2⟩, result', hresult', heq'.1, ?_⟩
  rw [Ne, ← hiff', heq'.2]
  exact Bool.false_ne_true

end WidgetShorthand
